import FilterQuery.History
import FilterQuery.Store

namespace FilterQuery

structure Session where
  config : Config
  store : Store
  history : History

mutual
/-- Names of the references in a tree that a stack stands behind, the last first, without those inside
that stack. -/
def Node.references : Node → List String
  | .leaf _ | .reference _ => []
  | .expansion name _ _ => [name]
  | .group _ _ ns => Node.allReferences ns

def Node.allReferences : List Node → List String
  | [] => []
  | n :: ns => Node.allReferences ns ++ n.references
end

def Tree.references (t : Tree) : List String := (t.root.map Node.references).getD []

namespace Session

def start (config : Config) (store : Store) : Session := ⟨config, store, .start 0 config.historyCap store.clock⟩

def parse (s : Session) (query : String) : Except Token.Overrun Tree :=
  Tree.parseWith (Stack.queries s.store.entries) s.config.maxReferenceDepth none query

def compileTree (s : Session) (t : Tree) : Compiled := Compiled.ofNode? s.config.page t.root

def noteUsage (store : Store) (use : String × Bool) : Store :=
  match (store.turned use.2).perform (.recordUsage use.1) with
  | .ok (after, _) => after.turned store.storage.writable
  | .error _ => store

def uses (t : Tree) (takes : Nat → Bool) : List (String × Bool) := t.references.zipIdx.map fun r => (r.1, takes r.2)

def refine (s : Session) (query : String) (count : Nat) (label : Option String)
    (takes : Nat → Bool := fun _ => s.store.storage.writable) : Except Token.Overrun Session := do
  let t ← s.parse query
  let store := (uses t takes).foldl noteUsage s.store
  let now := store.clock + 1
  return { s with
    store := { store with clock := now }
    history := s.history.push (.ofTree t count label now) }

def markShortcut (s : Session) (shortcut : Nat) : Except Stack.Refusal (Option (Session × Stack)) :=
  match s.store.byShortcut? shortcut with
  | none => .ok none
  | some found => do
    let (store, used) ← s.store.perform (.recordUsage found.name)
    let some stack := used | .error (.notFound found.name)
    return some ({ s with store := store }, stack)

def runShortcut (s : Session) (shortcut : Nat) :
    Except Stack.Refusal (Option (Session × Stack × Compiled)) := do
  let some (s, stack) ← s.markShortcut shortcut | return none
  match s.parse stack.query with
  | .ok t => return some (s, stack, s.compileTree t)
  | .error _ => .error .overrun

end Session

end FilterQuery
