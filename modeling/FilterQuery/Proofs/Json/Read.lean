import FilterQuery.Json.Read
import FilterQuery.Proofs.Digits

namespace FilterQuery

def Double.isFinite : Double → Bool
  | .finite .. => true
  | .infinite _ | .nan => false

namespace Json

theorem quoted?_of_plain {c : Char} (hquote : c ≠ '"') (hslash : c ≠ '\\') (h : ¬c.toNat < 32) (cs : List Char) :
    quoted? (c :: cs) = (quoted? cs).map fun r => (c :: r.1, r.2) := by
  rw [quoted?, if_neg h]
  · exact hquote
  · exact fun _ _ _ _ _ he => absurd he hslash
  · exact fun _ _ he => absurd he hslash

theorem hexValues?_hexDigit : ∀ n < 32, hexValues? ['0', '0', hexDigit (n / 16), hexDigit (n % 16)] = some n := by
  decide

theorem quoted?_escapeChar (c : Char) (cs : List Char) :
    quoted? (escapeChar c ++ cs) = (quoted? cs).map fun r => (c :: r.1, r.2) := by
  unfold escapeChar
  split
  case h_1 | h_2 | h_3 | h_4 | h_5 => simp [quoted?, unescape?]
  case h_6 hquote hslash _ _ _ =>
    split
    · next h =>
      subst h
      simp [quoted?, unescape?]
    · split
      · next h =>
        subst h
        simp [quoted?, unescape?]
      · split
        · next hlow =>
          have hcode : c.toNat < 0xd800 ∨ 0xe000 ≤ c.toNat := .inl (by omega)
          simp only [List.cons_append, List.nil_append, quoted?, hexValues?_hexDigit _ hlow, Option.bind_some,
            if_pos hcode, Char.ofNat_toNat]
        · next hlow => exact quoted?_of_plain hquote hslash hlow cs

theorem quoted?_escaped (cs rest : List Char) :
    quoted? (cs.flatMap escapeChar ++ '"' :: rest) = some (cs, rest) := by
  induction cs with
  | nil => rw [List.flatMap_nil, List.nil_append, quoted?]
  | cons c cs ih => rw [List.flatMap_cons, List.append_assoc, quoted?_escapeChar, ih, Option.map_some]

theorem toList_quote (s : String) : (quote s).toList = '"' :: s.toList.flatMap escapeChar ++ ['"'] := by
  rw [quote, String.toList_ofList]

def Closes (rest : List Char) : Prop := ∀ c, rest.head? = some c → isNumberChar c = false

theorem closes_nil : Closes [] := nofun

theorem closes_cons {c : Char} (h : isNumberChar c = false) (cs : List Char) : Closes (c :: cs) := by
  intro d hd
  cases hd
  exact h

theorem isNumberChar_of_isDigit {c : Char} (h : Number.isDigit c = true) : isNumberChar c = true := by
  simp [isNumberChar, h]

theorem isNumberChar_toString (n : Int) : ∀ c ∈ (toString n).toList, isNumberChar c = true := by
  rw [Number.toList_toString]
  cases n with
  | ofNat m => exact fun c hc => isNumberChar_of_isDigit (Number.isDigit_of_mem_digits c hc)
  | negSucc m =>
    exact List.forall_mem_cons.2 ⟨by decide, fun c hc => isNumberChar_of_isDigit (Number.isDigit_of_mem_digits c hc)⟩

theorem toString_ne_nil (n : Int) : (toString n).toList ≠ [] := by
  rw [Number.toList_toString]
  cases n with
  | ofNat m => exact Number.digits_ne_nil m
  | negSucc m => exact List.cons_ne_nil _ _

theorem isNumberChar_positional (d : Nat) (k : Int) : ∀ c ∈ Double.positional d k, isNumberChar c = true := by
  unfold Double.positional
  split
  · exact fun c hc => isNumberChar_of_isDigit (Number.isDigit_of_mem_digits c hc)
  · have hpadded : ∀ c ∈ Number.padded ((-k).toNat + 1) d, isNumberChar c = true :=
      fun c hc => isNumberChar_of_isDigit (Number.isDigit_of_mem_padded c hc)
    refine List.forall_mem_append.2 ⟨fun c hc => hpadded c (List.mem_of_mem_take hc), ?_⟩
    exact List.forall_mem_cons.2 ⟨by decide, fun c hc => hpadded c (List.mem_of_mem_drop hc)⟩

theorem isNumberChar_realDigits (d : Nat) (k : Int) : ∀ c ∈ realDigits d k, isNumberChar c = true := by
  have hdigits : ∀ c ∈ Number.digits d, isNumberChar c = true :=
    fun c hc => isNumberChar_of_isDigit (Number.isDigit_of_mem_digits c hc)
  unfold realDigits
  dsimp only
  split
  · refine List.forall_mem_append.2 ⟨isNumberChar_positional d k, List.forall_mem_cons.2 ⟨by decide, ?_⟩⟩
    exact List.forall_mem_singleton.2 (by decide)
  · split
    · exact isNumberChar_positional d k
    · refine List.forall_mem_append.2 ⟨List.forall_mem_append.2 ⟨fun c hc => hdigits c (List.mem_of_mem_take hc), ?_⟩,
        List.forall_mem_cons.2 ⟨by decide, isNumberChar_toString _⟩⟩
      split
      · exact nofun
      · exact List.forall_mem_cons.2 ⟨by decide, fun c hc => hdigits c (List.mem_of_mem_drop hc)⟩

theorem realDigits_ne_nil (d : Nat) (k : Int) : realDigits d k ≠ [] := by
  unfold realDigits
  dsimp only
  split
  · simp
  · split
    · unfold Double.positional
      split
      · exact Number.digits_ne_nil _
      · simp
    · simp

theorem isNumberChar_realText {x : Double} (h : x.isFinite = true) :
    (realText x).toList ≠ [] ∧ ∀ c ∈ (realText x).toList, isNumberChar c = true := by
  cases x with
  | infinite | nan => cases h
  | finite negative m e hnormal =>
    rw [realText, String.toList_ofList]
    refine ⟨fun hnil => realDigits_ne_nil _ _ (List.append_eq_nil_iff.1 hnil).2, ?_⟩
    refine List.forall_mem_append.2 ⟨?_, isNumberChar_realDigits _ _⟩
    cases negative with
    | false => exact nofun
    | true => exact List.forall_mem_singleton.2 (by decide)

theorem value?_cons {c : Char} (h : isBlank c = false) (fuel : Nat) (cs : List Char) : value? (fuel + 1) (c :: cs) =
    if c = '"' then (quoted? cs).map fun r => (.string (String.ofList r.1), r.2)
    else if c = '[' then match cs.dropWhile isBlank with
      | ']' :: rest => some (.array [], rest)
      | cs => (items? fuel cs).map fun r => (.array r.1, r.2)
    else if c = '{' then match cs.dropWhile isBlank with
      | '}' :: rest => some (.object [], rest)
      | cs => (members? fuel cs).map fun r => (.object r.1, r.2)
    else if isNumberChar c then
      (number? ((c :: cs).takeWhile isNumberChar)).map fun j => (j, (c :: cs).dropWhile isNumberChar)
    else word? (c :: cs) := by
  rewrite [value?, List.dropWhile_cons_of_neg (by simp [h])]
  rfl

theorem value?_number {cs rest : List Char} (hne : cs ≠ []) (h : ∀ c ∈ cs, isNumberChar c = true)
    (hrest : Closes rest) (fuel : Nat) : value? (fuel + 1) (cs ++ rest) = (number? cs).map (·, rest) := by
  obtain ⟨htake, hdrop⟩ := Token.span_append h hrest
  cases cs with
  | nil => exact absurd rfl hne
  | cons c cs =>
    have hc := h c List.mem_cons_self
    have hne : ∀ d, isNumberChar d = false → c ≠ d := fun d hd he => by rw [he, hd] at hc; cases hc
    have hblank : isBlank c = false := by
      simp [isBlank, hne ' ' (by decide), hne '\n' (by decide), hne '\r' (by decide), hne '\t' (by decide)]
    rw [List.cons_append, value?_cons hblank, if_neg (hne '"' (by decide)), if_neg (hne '[' (by decide)),
      if_neg (hne '{' (by decide)), if_pos hc, ← List.cons_append, htake, hdrop]

mutual
def received? : Json → Option Json
  | .int n => number? (toString n).toList
  | .real x => if x.isFinite then number? (realText x).toList else some .null
  | .array vs => (receivedItems? vs).map .array
  | .object ms => (receivedMembers? ms).map .object
  | v => some v

def receivedItems? : List Json → Option (List Json)
  | [] => some []
  | v :: vs => v.received?.bind fun v => (receivedItems? vs).map (v :: ·)

def receivedMembers? : List (String × Json) → Option (List (String × Json))
  | [] => some []
  | (key, v) :: ms => v.received?.bind fun v => (receivedMembers? ms).map ((key, v) :: ·)
end

theorem exists_head_compact (j : Json) : ∃ c cs, j.compact.toList = c :: cs ∧ isBlank c = false ∧ c ≠ ']' := by
  have hnumber : ∀ cs : List Char, cs ≠ [] → (∀ c ∈ cs, isNumberChar c = true) →
      ∃ c cs', cs = c :: cs' ∧ isBlank c = false ∧ c ≠ ']' := by
    intro cs hne h
    obtain ⟨c, cs', rfl⟩ := List.exists_cons_of_ne_nil hne
    have hc := h c List.mem_cons_self
    have hne : ∀ d, isNumberChar d = false → c ≠ d := fun d hd he => by rw [he, hd] at hc; cases hc
    refine ⟨c, cs', rfl, ?_, hne ']' (by decide)⟩
    simp [isBlank, hne ' ' (by decide), hne '\n' (by decide), hne '\r' (by decide), hne '\t' (by decide)]
  cases j with
  | null => exact ⟨'n', ['u', 'l', 'l'], rfl, by decide, by decide⟩
  | bool b =>
    cases b with
    | false => exact ⟨'f', ['a', 'l', 's', 'e'], rfl, by decide, by decide⟩
    | true => exact ⟨'t', ['r', 'u', 'e'], rfl, by decide, by decide⟩
  | int n => exact hnumber _ (toString_ne_nil n) (isNumberChar_toString n)
  | real x =>
    cases x with
    | finite s m e h =>
      obtain ⟨hne, hchars⟩ := isNumberChar_realText (x := .finite s m e h) rfl
      exact hnumber _ hne hchars
    | infinite | nan => exact ⟨'n', ['u', 'l', 'l'], by rw [compact, realText]; rfl, by decide, by decide⟩
  | string s => exact ⟨'"', _, by rw [compact, toList_quote]; rfl, by decide, by decide⟩
  | array vs => exact ⟨'[', _, by rw [compact, String.toList_append, String.toList_append]; rfl, by decide, by decide⟩
  | object ms =>
    exact ⟨'{', _, by rw [compact, String.toList_append, String.toList_append]; rfl, by decide, by decide⟩

theorem induction {p : Json → Prop} (atom : ∀ j, (∀ vs, j ≠ .array vs) → (∀ ms, j ≠ .object ms) → p j)
    (array : ∀ vs, (∀ v ∈ vs, p v) → p (.array vs)) (object : ∀ ms, (∀ m ∈ ms, p m.2) → p (.object ms)) : ∀ j, p j :=
  @Json.rec p (fun vs => ∀ v ∈ vs, p v) (fun ms => ∀ m ∈ ms, p m.2) (fun m => p m.2) (atom _ nofun nofun)
    (fun _ => atom _ nofun nofun) (fun _ => atom _ nofun nofun) (fun _ => atom _ nofun nofun)
    (fun _ => atom _ nofun nofun) array object nofun (fun _ _ hv hvs => List.forall_mem_cons.2 ⟨hv, hvs⟩) nofun
    (fun _ _ hm hms => List.forall_mem_cons.2 ⟨hm, hms⟩) fun _ _ h => h

def ReadsBack (j : Json) : Prop := ∀ {fuel : Nat} {rest : List Char}, 2 * j.compact.toList.length ≤ fuel →
  Closes rest → value? fuel (j.compact.toList ++ rest) = j.received?.map (·, rest)

section

variable {fuel : Nat} {rest : List Char}

theorem toList_compactItems (v : Json) (vs : List Json) : (compactItems (v :: vs)).toList =
    v.compact.toList ++ match vs with
      | [] => []
      | w :: ws => ',' :: (compactItems (w :: ws)).toList := by
  cases vs with
  | nil => exact (List.append_nil _).symm
  | cons w ws => simp [compactItems]

theorem items?_compactItems {v : Json} {vs : List Json} (h : ∀ w ∈ v :: vs, w.ReadsBack)
    (hfuel : 2 * (compactItems (v :: vs)).toList.length + 1 ≤ fuel) :
    items? fuel ((compactItems (v :: vs)).toList ++ ']' :: rest) = (receivedItems? (v :: vs)).map (·, rest) := by
  induction vs generalizing v fuel with
  | nil =>
    obtain ⟨fuel, rfl⟩ : ∃ n, fuel = n + 1 := ⟨fuel - 1, by omega⟩
    rw [toList_compactItems, List.append_nil] at hfuel ⊢
    rw [items?, h v List.mem_cons_self (by omega) (closes_cons (by decide) rest), receivedItems?, receivedItems?]
    cases v.received? with
    | none => rfl
    | some w => rfl
  | cons w ws ih =>
    obtain ⟨fuel, rfl⟩ : ∃ n, fuel = n + 1 := ⟨fuel - 1, by omega⟩
    obtain ⟨hv, hws⟩ := List.forall_mem_cons.1 h
    rw [toList_compactItems, List.length_append] at hfuel
    dsimp only at hfuel
    rw [List.length_cons] at hfuel
    rw [toList_compactItems, List.append_assoc, items?, List.cons_append,
      hv (by omega) (closes_cons (by decide) _), receivedItems?]
    cases v.received? with
    | none => rfl
    | some u =>
      have hlong : 2 * (compactItems (w :: ws)).toList.length + 1 ≤ fuel := by omega
      have hitems := ih hws hlong
      have hcomma : isBlank ',' = false := by decide
      simp only [Option.map_some, Option.bind_some, List.dropWhile_cons, hcomma, Bool.false_eq_true, if_false, hitems,
        Option.map_map]
      rfl

theorem toList_compactMembers (m : String × Json) (ms : List (String × Json)) : (compactMembers (m :: ms)).toList =
    '"' :: (m.1.toList.flatMap escapeChar ++ '"' :: ':' :: (m.2.compact.toList ++ match ms with
      | [] => []
      | w :: ws => ',' :: (compactMembers (w :: ws)).toList)) := by
  cases ms with
  | nil => simp [compactMembers, toList_quote]
  | cons w ws => simp [compactMembers, toList_quote]

theorem members?_quoted (key : String) (cs : List Char) :
    members? (fuel + 1) ('"' :: (key.toList.flatMap escapeChar ++ '"' :: ':' :: cs)) =
      (value? fuel cs).bind fun r => match r.2.dropWhile isBlank with
        | ',' :: rest => (members? fuel rest).map fun q => ((key, r.1) :: q.1, q.2)
        | '}' :: rest => some ([(key, r.1)], rest)
        | _ => none := by
  rewrite [members?, List.dropWhile_cons_of_neg (by decide)]
  simp only [quoted?_escaped, Option.bind_some]
  rewrite [List.dropWhile_cons_of_neg (by decide), String.ofList_toList]
  rfl

theorem members?_compactMembers {m : String × Json} {ms : List (String × Json)} (h : ∀ w ∈ m :: ms, w.2.ReadsBack)
    (hfuel : 2 * (compactMembers (m :: ms)).toList.length + 1 ≤ fuel) :
    members? fuel ((compactMembers (m :: ms)).toList ++ '}' :: rest) = (receivedMembers? (m :: ms)).map (·, rest) := by
  induction ms generalizing m fuel with
  | nil =>
    obtain ⟨fuel, rfl⟩ : ∃ n, fuel = n + 1 := ⟨fuel - 1, by omega⟩
    rw [toList_compactMembers] at hfuel ⊢
    simp only [List.length_cons, List.length_append] at hfuel
    simp only [List.append_nil, List.cons_append, List.append_assoc, members?_quoted]
    rw [h m List.mem_cons_self (by omega) (closes_cons (by decide) rest), receivedMembers?, receivedMembers?]
    cases m.2.received? with
    | none => rfl
    | some w => rfl
  | cons w ws ih =>
    obtain ⟨fuel, rfl⟩ : ∃ n, fuel = n + 1 := ⟨fuel - 1, by omega⟩
    obtain ⟨hm, hws⟩ := List.forall_mem_cons.1 h
    rw [toList_compactMembers] at hfuel ⊢
    simp only [List.length_cons, List.length_append] at hfuel
    simp only [List.cons_append, List.append_assoc, members?_quoted]
    rw [hm (by omega) (closes_cons (by decide) _), receivedMembers?]
    cases m.2.received? with
    | none => rfl
    | some u =>
      have hlong : 2 * (compactMembers (w :: ws)).toList.length + 1 ≤ fuel := by omega
      have hmembers := ih hws hlong
      have hcomma : isBlank ',' = false := by decide
      simp only [Option.map_some, Option.bind_some, List.dropWhile_cons, hcomma, Bool.false_eq_true, if_false,
        hmembers, Option.map_map]
      rfl

theorem readsBack (j : Json) : j.ReadsBack := by
  induction j using induction with
  | atom j harray hobject =>
    intro fuel rest hfuel hrest
    obtain ⟨c, cs, hcs, -⟩ := exists_head_compact j
    obtain ⟨fuel, rfl⟩ : ∃ n, fuel = n + 1 := ⟨fuel - 1, by rw [hcs, List.length_cons] at hfuel; omega⟩
    cases j with
    | null => rfl
    | bool b => cases b <;> rfl
    | int n => exact value?_number (toString_ne_nil n) (isNumberChar_toString n) hrest fuel
    | real x =>
      cases x with
      | infinite | nan =>
        rw [compact, realText]
        rfl
      | finite s m e h =>
        obtain ⟨hne, hchars⟩ := isNumberChar_realText (x := .finite s m e h) rfl
        exact value?_number hne hchars hrest fuel
    | string s =>
      rw [compact, toList_quote, List.append_assoc, List.cons_append, value?_cons (by decide), if_pos rfl,
        List.singleton_append, quoted?_escaped]
      simp [received?]
    | array vs => exact absurd rfl (harray vs)
    | object ms => exact absurd rfl (hobject ms)
  | array vs ih =>
    intro fuel rest hfuel hrest
    rw [compact, String.toList_append, String.toList_append] at hfuel ⊢
    have hopen : "[".toList = ['['] ∧ "]".toList = [']'] := by decide
    rw [hopen.1, hopen.2, List.length_append, List.length_append, List.length_singleton, List.length_singleton] at hfuel
    obtain ⟨fuel, rfl⟩ : ∃ n, fuel = n + 1 := ⟨fuel - 1, by omega⟩
    rw [hopen.1, hopen.2, List.append_assoc, List.append_assoc, List.singleton_append, value?_cons (by decide),
      if_neg (by decide), if_pos rfl, List.singleton_append]
    cases vs with
    | nil => rfl
    | cons v vs =>
      -- A value begins neither with a blank nor with the bracket that closes an empty array.
      obtain ⟨c, cs, hcs, hblank, hclose⟩ := exists_head_compact v
      have hitems : items? fuel ((compactItems (v :: vs)).toList ++ ']' :: rest) = _ :=
        items?_compactItems ih (by omega)
      rw [toList_compactItems, hcs, List.cons_append, List.cons_append] at hitems ⊢
      rw [List.dropWhile_cons_of_neg (by simp [hblank])]
      split
      · next heq => exact absurd (List.cons.inj heq).1 hclose
      · rw [hitems, received?, Option.map_map, Option.map_map]
        rfl
  | object ms ih =>
    intro fuel rest hfuel hrest
    rw [compact, String.toList_append, String.toList_append] at hfuel ⊢
    have hopen : "\x7b".toList = ['{'] ∧ "\x7d".toList = ['}'] := by decide
    rw [hopen.1, hopen.2, List.length_append, List.length_append, List.length_singleton, List.length_singleton] at hfuel
    obtain ⟨fuel, rfl⟩ : ∃ n, fuel = n + 1 := ⟨fuel - 1, by omega⟩
    rw [hopen.1, hopen.2, List.append_assoc, List.append_assoc, List.singleton_append, value?_cons (by decide),
      if_neg (by decide), if_neg (by decide), if_pos rfl, List.singleton_append]
    cases ms with
    | nil => rfl
    | cons m ms =>
      have hmembers : members? fuel ((compactMembers (m :: ms)).toList ++ '}' :: rest) = _ :=
        members?_compactMembers ih (by omega)
      rw [toList_compactMembers, List.cons_append] at hmembers ⊢
      rw [List.dropWhile_cons_of_neg (by decide)]
      split
      · next heq => cases heq
      · rw [hmembers, received?, Option.map_map, Option.map_map]
        rfl

theorem read?_compact (j : Json) : read? j.compact = j.received? := by
  have h := j.readsBack (Nat.le_refl _) closes_nil
  rw [List.append_nil] at h
  rw [read?, h]
  cases j.received? with
  | none => rfl
  | some v => rfl

end

end Json

end FilterQuery
