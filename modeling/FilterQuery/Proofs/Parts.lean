import FilterQuery.Compiled.Text
import FilterQuery.Proofs.Calendar
import FilterQuery.Proofs.Double
import FilterQuery.Proofs.Printing

namespace FilterQuery

open Calendar (Date Period millisPerDay)
open Grammar (Conjunction EndsTerm IsValue Term Unary)
open Token (Kind Scans)

def Leaf.partText : Leaf → List Char
  | term .date v .is => Category.date.name.toList ++ ':' :: v.toList
  | l => l.text

def Leaf.IsPart (l : Leaf) : Prop :=
  Written EndsTerm (fun ks next => EndsTerm ks.head? ∧ Unary ks next (some (.leaf l))) l.partText

theorem endsTerm_none : EndsTerm none := nofun

theorem Leaf.isPart_of_scans {l : Leaf} {ks : List Kind} (hs : Scans l.partText ks) (hk : EndsTerm ks.head?)
    (hu : ∀ next, EndsTerm next → Unary ks next (some (.leaf l))) : l.IsPart :=
  ⟨ks, ⟨hs, (hu none endsTerm_none).isSound⟩, fun next hn => ⟨hk, hu next hn⟩⟩

theorem conjunction_of_parts {ls : List Leaf} (hne : ls ≠ []) (h : ∀ l ∈ ls, l.IsPart) :
    Written EndsTerm (Conjunction · · (ls.map .leaf)) ([' '].intercalate (ls.map Leaf.partText)) := by
  have hblank : ∀ {cs : List Char} {ks : List Kind}, Spells cs ks → Spells ([' '] ++ cs) ([] ++ ks) :=
    fun h => h.blank
  refine Written.intercalate (q := fun ls ks next => Conjunction ks next (ls.map .leaf))
    (fun cs => Token.breaks_cons (by decide +kernel) cs) hblank endsTerm_none (fun l us next hl => hl.1)
    (fun l ks next hl => .one hl.2) (fun ls l ks us next hls hl => ?_) hne h
  rw [List.map_append]
  exact .beside hls hl.2

theorem Text.not_mem_star {v : List Char} (h : isPlain v = true) : '*' ∉ v := by
  have hstar : isPlain.startsPlain '*' = false := by decide +kernel
  cases v with
  | nil => cases h
  | cons c cs =>
    simp only [isPlain, Bool.and_eq_true, List.all_eq_true] at h
    intro hm
    rcases List.mem_cons.1 hm with heq | hm
    · rw [← heq, hstar] at h
      cases h.1
    · have hc := h.2 _ hm
      rw [hstar] at hc
      cases hc

namespace Grammar

variable {s : Option Stance} {k : Kind} {v : String} {next : Option Kind}

theorem Term.bare (hk : Clause.bareValue? k = some v) (hn : EndsTerm next) :
    Term s [k] next (content v s) := by
  cases k with
  | word =>
    cases hk
    exact .word (hn.standsAlone v)
  | number =>
    cases hk
    exact .number
  | date =>
    cases hk
    exact .date
  | _ => cases hk

theorem endsTerm_of_startsTerm (hk : Clause.startsTerm k = true) : EndsTerm (some k) := by
  rintro k' ⟨⟩
  cases k with
  | word | number | date | phrase | regex | wildcard => exact ⟨nofun, rfl⟩
  | _ => cases hk

end Grammar

theorem startsTerm_classify (w : List Char) : Clause.startsTerm (Token.classify w) = true := by
  have hk := Token.wordText?_classify w
  cases h : Token.classify w <;> rw [h] at hk <;> first | rfl | cases hk

theorem ofName?_name (c : Category) : Category.ofName? c.name = some c := by
  cases c <;> decide +kernel

theorem comparable?_name_eq_none {c : Category} (h : c.isComparable = false) :
    Clause.comparable? c.name = none := by
  simp [Clause.comparable?, ofName?_name, h]

namespace Leaf

theorem isPart_term {c : Category} {v : String} {s : Stance} (hs : s ≠ .neutral) (hc : c.isComparable = false)
    (hv : c.foldsCase = true → Text.lower v = v) : (term c v s).IsPart := by
  have htext : (term c v s).partText = Text.term c v.toList s := by
    cases c <;> first | rfl | cases hc
  have hbare : Text.isPlain v.toList = true → Clause.bareValue? (Token.classify v.toList) = some v := by
    intro hp
    rw [Token.bareValue?_classify (Text.not_mem_star hp), String.ofList_toList]
  have hscans := scans_term c v.toList s
  rw [← htext] at hscans
  unfold termKinds at hscans
  rw [if_neg hs] at hscans
  split at hscans
  · next hcontent =>
    rw [Bool.and_eq_true, decide_eq_true_eq] at hcontent
    obtain ⟨rfl, hp⟩ := hcontent
    split at hscans
    · next his =>
      subst his
      exact isPart_of_scans hscans (Grammar.endsTerm_of_startsTerm (startsTerm_classify _))
        fun next hn => .plain (.bare (hbare hp) hn)
    · refine isPart_of_scans hscans ?_ fun next hn => .signed (.bare (hbare hp) hn)
      rintro k ⟨⟩
      exact ⟨nofun, rfl⟩
  · have hcomparable := comparable?_name_eq_none hc
    have hterm : Grammar.categoryTerm c v (some s) = .leaf (term c v s) := by
      unfold Grammar.categoryTerm
      cases hf : c.foldsCase with
      | true =>
        rw [if_pos rfl, hv hf]
        rfl
      | false => rfl
    refine isPart_of_scans hscans ?_ fun next hn => .signed ?_
    · rintro k ⟨⟩
      exact ⟨nofun, rfl⟩
    · unfold Text.valueKind
      split
      · next hp =>
        have hnamed : Grammar.namedValue c.name v (some s) = .leaf (term c v s) := by
          rw [Grammar.namedValue, ofName?_name, ← hterm]
        rw [← hnamed]
        exact .named hcomparable (hbare hp)
      · rw [← hterm, String.ofList_toList]
        exact .quoted hcomparable (ofName?_name c)

theorem isPart_phrase (v : String) : (phrase v none).IsPart := by
  have hs := Scans.quote (v := v.toList) .nil
  rw [List.append_nil, String.ofList_toList] at hs
  refine isPart_of_scans hs ?_ fun next _ => .plain .phrase
  rintro k ⟨⟩
  exact ⟨nofun, rfl⟩

theorem isPart_of_readsAlone {l : Leaf} (h : (Node.leaf l).ReadsAlone) (ht : l.partText = l.text) {k : Kind}
    {field : Option String} (hk : l.kinds = fieldKinds field ++ [k]) (hstarts : Clause.startsTerm k = true) :
    l.IsPart := by
  obtain ⟨hspells, hu⟩ := unary_of_readsAlone h
  have hlast : l.kinds.getLast? ≠ some (.compare .within) := by
    rw [hk, List.getLast?_concat]
    rintro ⟨⟩
    cases hstarts
  have hhead : ∃ k' ks, l.kinds = k' :: ks ∧ Clause.startsTerm k' = true := by
    rw [hk]
    cases field with
    | none => exact ⟨k, [], rfl, hstarts⟩
    | some f => exact ⟨_, _, rfl, startsTerm_classify f.toList⟩
  have hs : Scans l.partText l.kinds := ht ▸ hspells.scans
  obtain ⟨k', ks, hks, hk'⟩ := hhead
  refine isPart_of_scans hs ?_ fun next hn => ?_
  · rw [hks]
    exact Grammar.endsTerm_of_startsTerm hk'
  · generalize l.kinds = ls, some (Node.leaf l) = n at hks hu hlast
    cases hu with
    | plain ht => exact .plain (ht.behind hn fun heq => absurd heq hlast)
    | _ =>
      cases hks
      cases hk'

theorem isPart_comparison {c : Category} {op : Comparator} {v : String} (hc : c.isComparable = true)
    (hop : op ≠ .within) (hw : Token.IsWord v.toList)
    (hv : Grammar.IsValue c (Token.classify v.toList) v) : (comparison c op v none).IsPart := by
  have hs : Scans (comparison c op v none).partText (comparison c op v none).kinds := scans ⟨hw, nofun⟩
  have hkinds : (comparison c op v none).kinds =
      [.word c.name, .colon, .compare op, Token.classify v.toList] := by
    cases op <;> first | rfl | exact absurd rfl hop
  rw [hkinds] at hs
  refine isPart_of_scans hs ?_ fun next _ => .plain (.compared (Clause.comparable?_name hc) hop hv rfl)
  rintro k ⟨⟩
  exact ⟨nofun, rfl⟩

theorem isPart_period {v : String} (hw : Token.IsWord v.toList) (hstar : '*' ∉ v.toList)
    (hp : (Calendar.Period.read? v.toList).isSome = true) : (term .date v .is).IsPart := by
  have hvalue := Scans.word hw Token.endsWord_nil .nil
  rw [List.append_nil] at hvalue
  have hs : Scans (term .date v .is).partText [.word Category.date.name, .colon, Token.classify v.toList] :=
    Scans.name .date hvalue
  have hbare := Token.bareValue?_classify hstar
  rw [String.ofList_toList] at hbare
  refine isPart_of_scans hs ?_ fun next _ => .plain (.period (by decide +kernel) ⟨hbare, hp⟩)
  rintro k ⟨⟩
  exact ⟨nofun, rfl⟩

end Leaf

namespace Compiled

def IsEdge (edge : Period → Int) : Prop := ∀ p : Period, p.first ≤ p.last → p.first ≤ edge p ∧ edge p ≤ p.last

def IsWritable (edge : Period → Int) (n : Int) : Prop :=
  0 ≤ n ∨ ∃ d : Date, d.IsCommon ∧ n = edge ⟨d.toDays * millisPerDay, (d.toDays + 1) * millisPerDay - 1⟩

theorem IsEdge.isCommonInstant {edge : Period → Int} (h : IsEdge edge) {d : Date} (hd : d.IsCommon) :
    Calendar.IsCommonInstant d (edge ⟨d.toDays * millisPerDay, (d.toDays + 1) * millisPerDay - 1⟩) := by
  have hle : d.toDays * millisPerDay ≤ (d.toDays + 1) * millisPerDay - 1 := by
    unfold millisPerDay
    omega
  obtain ⟨hlow, hhigh⟩ := h ⟨_, _⟩ hle
  exact ⟨hd, hlow, Int.lt_of_le_sub_one hhigh⟩

theorem instantText_spec {edge : Period → Int} (hedge : IsEdge edge) {n : Int} (hn : Number.fitsInt n = true)
    (h : IsWritable edge n) : Token.IsWord (instantText edge n) ∧ '*' ∉ instantText edge n ∧
      (Period.read? (instantText edge n)).map edge = some n := by
  have hpadded : 0 ≤ n → Token.IsWord (Number.paddedInt 5 n) ∧ '*' ∉ Number.paddedInt 5 n ∧
      (Period.read? (Number.paddedInt 5 n)).map edge = some n := by
    intro h0
    obtain ⟨k, rfl⟩ := Int.eq_ofNat_of_zero_le h0
    have hlen := Number.le_length_padded 5 k
    have hne : Number.padded 5 k ≠ [] := fun hnil => by simp [hnil] at hlen
    refine ⟨Token.isWord_of_isDigit hne Number.isDigit_of_mem_padded,
      Token.not_mem_star Number.isDigit_of_mem_padded, ?_⟩
    have hsame : edge ⟨k, k⟩ = k := by
      obtain ⟨hlow, hhigh⟩ := hedge ⟨k, k⟩ (Int.le_refl _)
      dsimp only at hlow hhigh
      omega
    change (Period.read? (Number.padded 5 k)).map edge = some (k : Int)
    rw [Period.read?_padded hn, Option.map_some, hsame]
  rcases h with h0 | ⟨d, hd, hday⟩
  · unfold instantText
    cases hday : Calendar.dayOf? n with
    | none => exact hpadded h0
    | some d =>
      simp only [Option.map_some]
      split
      · next heq =>
        rcases Calendar.isCommon_of_dayOf? hday (.inl h0) with hlt | hd
        · rw [Period.read?_text_of_lt hlt] at heq
          cases heq
        · exact ⟨hd.isWord_text.1, hd.isWord_text.2, heq⟩
      · rw [if_neg (by omega)]
        exact hpadded h0
  · have hcommon := hedge.isCommonInstant hd
    have hread := congrArg (Option.map edge) hd.period
    rw [Option.map_some, ← hday] at hread
    rw [← hday] at hcommon
    have htext : instantText edge n = d.text := by
      unfold instantText
      rw [hcommon.dayOf?]
      simp only [Option.map_some]
      rw [if_pos hread]
    rw [htext]
    exact ⟨hd.isWord_text.1, hd.isWord_text.2, hread⟩

theorem isEdge_first : IsEdge (·.first) := fun _ h => ⟨Int.le_refl _, h⟩

theorem isEdge_last : IsEdge (·.last) := fun _ h => ⟨h, Int.le_refl _⟩

theorem exactPeriod?_of_instant {first last : Int} {cs : List Char} (h : exactPeriod? first last = some cs)
    (hfirst : 0 ≤ first ∨ ∃ d, Calendar.IsCommonInstant d first) : ∃ d : Date, d.IsCommon ∧
      (cs = d.text.take 4 ∨ cs = d.text.take 7 ∨ cs = d.text) ∧ Period.read? cs = some ⟨first, last⟩ := by
  unfold exactPeriod? at h
  cases hday : Calendar.dayOf? first with
  | none =>
    rw [hday] at h
    cases h
  | some d =>
    rw [hday] at h
    have hfind : [d.text.take 4, d.text.take 7, d.text].find?
        (fun cs => decide (Period.read? cs = some ⟨first, last⟩)) = some cs := h
    have hread : Period.read? cs = some ⟨first, last⟩ := by
      have hfound := List.find?_some hfind
      exact of_decide_eq_true hfound
    have hmem := List.mem_of_find?_eq_some hfind
    simp only [List.mem_cons, List.not_mem_nil, or_false] at hmem
    rcases Calendar.isCommon_of_dayOf? hday hfirst with hlt | hd
    · have hnone : Period.read? cs = none := by
        rcases hmem with rfl | rfl | rfl
        · exact Period.read?_take_text_of_lt hlt (by decide)
        · exact Period.read?_take_text_of_lt hlt (by decide)
        · exact Period.read?_text_of_lt hlt
      rw [hnone] at hread
      cases hread
    · exact ⟨d, hd, hmem, hread⟩

theorem isWord_of_prefix {d : Date} (hd : d.IsCommon) {cs : List Char}
    (h : cs = d.text.take 4 ∨ cs = d.text.take 7 ∨ cs = d.text) : Token.IsWord cs ∧ '*' ∉ cs := by
  rcases h with rfl | rfl | rfl
  · exact hd.take_text 3
  · exact hd.take_text 6
  · exact hd.isWord_text

theorem exactPeriod?_spec {first last : Int} {cs : List Char} (h : exactPeriod? first last = some cs)
    (hfirst : IsWritable (·.first) first) : Token.IsWord cs ∧ '*' ∉ cs ∧ Period.read? cs = some ⟨first, last⟩ := by
  have hinstant : 0 ≤ first ∨ ∃ d, Calendar.IsCommonInstant d first := by
    rcases hfirst with h0 | ⟨d, hd, hday⟩
    · exact .inl h0
    · exact .inr ⟨d, hday ▸ isEdge_first.isCommonInstant hd⟩
  obtain ⟨d, hd, hcs, hread⟩ := exactPeriod?_of_instant h hinstant
  obtain ⟨hword, hstar⟩ := isWord_of_prefix hd hcs
  exact ⟨hword, hstar, hread⟩

theorem isValue_date {cs : List Char} (hs : '*' ∉ cs) (h : (Period.read? cs).isSome = true) :
    IsValue .date (Token.classify cs) (String.ofList cs) := by
  refine ⟨Token.bareValue?_classify hs, ?_⟩
  rwa [String.toList_ofList]

theorem isValue_words {n : Nat} (h : n < Number.wordLimit) :
    IsValue .words (Token.classify (Number.digits n)) (String.ofList (Number.digits n)) := by
  refine ⟨Token.bareValue?_classify (Token.not_mem_star Number.isDigit_of_mem_digits), ?_⟩
  have hread : Number.word? (Number.digits n) = some n := Number.natBelow?_digits h
  rw [String.toList_ofList, hread]
  rfl

end Compiled

def Double.IsPositive (x : Double) : Prop := ∃ m e hnormal, x = .finite false m e hnormal

namespace Compiled

theorem isValue_number {c : Category} (hc : c = .quality ∨ c = .sim) {x : Double} (h : x.IsPositive) :
    Token.IsWord x.text ∧ IsValue c (Token.classify x.text) (String.ofList x.text) := by
  obtain ⟨m, e, hnormal, rfl⟩ := h
  have hread := Double.read?_text hnormal
  obtain ⟨d, k, hpos, -⟩ := Double.isPositional_text hnormal
  have hvalue : Clause.isNumberKind (Token.classify (Double.text (.finite false m e hnormal))) = true ∧
      (Double.read? (String.ofList (Double.text (.finite false m e hnormal))).toList).isSome = true := by
    rw [hpos.classify, String.toList_ofList, hread]
    exact ⟨rfl, rfl⟩
  refine ⟨hpos.isWord, ?_, ?_⟩
  · rw [hpos.classify]
    rfl
  · rcases hc with rfl | rfl <;> exact hvalue

end Compiled

end FilterQuery
