/-! Named files and their contents, kept in memory or in a directory. A write either takes place or is
refused and changes nothing. In memory any text is a name; in a directory it is a path. -/

namespace FilterQuery

namespace Storage

inductive Failure
  | notFound
  | isDirectory
  | notDirectory
  | nameTooLong
  | invalidName
  | refused
  deriving DecidableEq

def segments : List Char → List (List Char)
  | [] => [[]]
  | c :: cs =>
    if c = '/' then [] :: segments cs
    else match segments cs with
      | s :: rest => (c :: s) :: rest
      | [] => [[c]]

theorem segments_of_notMem {cs : List Char} (h : '/' ∉ cs) : segments cs = [cs] := by
  induction cs with
  | nil => rfl
  | cons c cs ih =>
    simp only [List.mem_cons, not_or] at h
    simp [segments, ih h.2, Ne.symm h.1]

def segmentLimit : Nat := 255

def byteLength (cs : List Char) : Nat := cs.foldl (fun n c => n + c.utf8Size) 0

inductive Place
  | base
  | outside
  | file (name : String)
  deriving DecidableEq

def Place.enter (isFile : String → Bool) (p : Place) (segment : List Char) : Except Failure Place :=
  match p with
  | file _ => .error .notDirectory
  | _ =>
    if segment = [] ∨ segment = ['.'] then .ok p
    else if segment = ['.', '.'] then .ok outside
    else if segmentLimit < byteLength segment then .error .nameTooLong
    else if p = base ∧ isFile (String.ofList segment) = true then .ok (file (String.ofList segment))
    else .error .notFound

def Place.follow (isFile : String → Bool) : Place → List (List Char) → Except Failure Place
  | p, [] => .ok p
  | p, s :: rest => match p.enter isFile s with
    | .ok p => follow isFile p rest
    | .error e => .error e

def Place.ofName (isFile : String → Bool) (name : String) : Except Failure Place :=
  let cs := name.toList
  if cs.contains '\x00' then .error .invalidName
  else (if cs.head? = some '/' then outside else base).follow isFile (segments cs)

def draftLength : Nat := 27

def draftFailure? (name : String) : Option Failure :=
  let cs := name.toList
  if cs.contains '\x00' then some .invalidName
  else match segments cs with
    | first :: rest =>
      if !rest.isEmpty && rest.all List.isEmpty then some .isDirectory
      else if segmentLimit < draftLength + byteLength first then some .nameTooLong
      else if rest.isEmpty then none
      else some .notFound
    | [] => none

end Storage

inductive Medium
  | memory
  | directory
  deriving DecidableEq

structure Storage where
  medium : Medium
  files : List (String × ByteArray)
  -- Whether the next write takes place.
  writable : Bool

namespace Storage

def empty (medium : Medium) : Storage := ⟨medium, [], true⟩

def turned (s : Storage) (writable : Bool) : Storage := { s with writable := writable }

def content? (s : Storage) (name : String) : Option ByteArray := s.files.lookup name

def contains (s : Storage) (name : String) : Bool := (s.content? name).isSome

def without (s : Storage) (name : String) : List (String × ByteArray) :=
  s.files.filter (·.1 != name)

def put (s : Storage) (name : String) (data : ByteArray) : Storage :=
  { s with files := (name, data) :: s.without name }

def target (s : Storage) (name : String) : Except Failure String :=
  match s.medium with
  | .memory => .ok name
  | .directory => match Place.ofName s.contains name with
    | .ok (.file name) => .ok name
    | .ok _ => .error .isDirectory
    | .error e => .error e

def reaches (s : Storage) (name : String) : Bool :=
  match s.medium with
  | .memory => s.contains name
  | .directory => (Place.ofName s.contains name).isOk

def read (s : Storage) (name : String) : Except Failure ByteArray :=
  match s.target name with
  | .ok name => match s.content? name with
    | some data => .ok data
    | none => .error .notFound
  | .error e => .error e

def writeFailure? (s : Storage) (name : String) : Option Failure :=
  if !s.writable then some .refused
  else match s.medium with
    | .memory => none
    | .directory => draftFailure? name

def write (s : Storage) (name : String) (data : ByteArray) : Except Failure Storage :=
  match s.writeFailure? name with
  | none => .ok (s.put name data)
  | some e => .error e

def delete (s : Storage) (name : String) : Except Failure Storage :=
  match s.target name with
  | .ok name => .ok { s with files := s.without name }
  | .error e => .error e

def names (s : Storage) : List String :=
  (s.files.map (·.1)).mergeSort fun a b => !(b < a)

theorem lookup_filter_ne {files : List (String × ByteArray)} {name other : String} (h : other ≠ name) :
    (files.filter (·.1 != name)).lookup other = files.lookup other := by
  induction files with
  | nil => rfl
  | cons f fs ih =>
    obtain ⟨n, d⟩ := f
    by_cases hn : n = name
    · subst hn
      simp [List.lookup_cons, beq_false_of_ne h, ih]
    · simp [List.lookup_cons, hn, ih]

@[simp] theorem content?_put_self (s : Storage) (name : String) (data : ByteArray) :
    (s.put name data).content? name = some data := by
  simp [put, content?]

theorem content?_put_of_ne (s : Storage) {name other : String} (data : ByteArray) (h : other ≠ name) :
    (s.put name data).content? other = s.content? other := by
  simp [put, content?, List.lookup_cons, without, beq_false_of_ne h, lookup_filter_ne h]

end Storage

end FilterQuery
