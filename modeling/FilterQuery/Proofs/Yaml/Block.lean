import FilterQuery.Proofs.Yaml.Style
import FilterQuery.Yaml.Scalar
import Mathlib.Data.List.TakeWhile

namespace FilterQuery.Yaml

open Glyph

def closed (atStart : Bool) : List Char → List Char
  | [] => if atStart then [] else ['\n']
  | c :: cs => c :: closed (isBreak c) cs

theorem closed_append (atStart : Bool) (cs : List Char) (c : Char) (ds : List Char) :
    closed atStart (cs ++ c :: ds) = cs ++ c :: closed (isBreak c) ds := by
  induction cs generalizing atStart with
  | nil => rfl
  | cons d cs ih => rw [List.cons_append, closed, ih, List.cons_append]

theorem append_of_cons {f : List Char → List Char} {cs : List Char}
    (h : ∀ c ∈ cs, ∀ ds, f (c :: ds) = c :: f ds) (ds : List Char) : f (cs ++ ds) = cs ++ f ds := by
  induction cs with
  | nil => rfl
  | cons c cs ih =>
    obtain ⟨hc, hcs⟩ := List.forall_mem_cons.1 h
    rw [List.cons_append, hc, ih hcs, List.cons_append]

theorem closed_breaks {bs : List Char} (h : ∀ b ∈ bs, isBreak b = true) (cs : List Char) :
    closed true (bs ++ cs) = bs ++ closed true cs :=
  append_of_cons (fun b hb ds => by rw [closed, h b hb]) cs

theorem closed_line {cs : List Char} (h : ∀ c ∈ cs, isBreak c = false) (ds : List Char) :
    closed false (cs ++ ds) = cs ++ closed false ds :=
  append_of_cons (fun c hc ds => by rw [closed, h c hc]) ds

section

variable {width : Nat}

theorem literalLines_visible {c : Char} (h : isBreak c = false) (cs : List Char) :
    literalLines width false (c :: cs) = c :: literalLines width false cs := by
  rw [literalLines, if_neg (Bool.eq_false_iff.1 h)]
  rfl

theorem literalLines_indented {c : Char} (h : isBreak c = false) (cs : List Char) :
    literalLines width true (c :: cs) = List.replicate width ' ' ++ literalLines width false (c :: cs) := by
  rw [literalLines_visible h, literalLines, if_neg (Bool.eq_false_iff.1 h)]
  rfl

theorem literalLines_breaks {bs : List Char} (h : ∀ b ∈ bs, isBreak b = true) (cs : List Char) :
    literalLines width true (bs ++ cs) = bs ++ literalLines width true cs :=
  append_of_cons (fun b hb ds => by rw [literalLines, if_pos (h b hb)]) cs

theorem literalLines_line {cs : List Char} (h : ∀ c ∈ cs, isBreak c = false) (ds : List Char) :
    literalLines width false (cs ++ ds) = cs ++ literalLines width false ds :=
  append_of_cons (fun c hc => literalLines_visible (h c hc)) ds

theorem length_le_literalLines (atStart : Bool) (cs : List Char) :
    cs.length ≤ (literalLines width atStart cs).length := by
  induction cs generalizing atStart with
  | nil => exact Nat.zero_le _
  | cons c cs ih =>
    rw [literalLines]
    split
    · exact Nat.succ_le_succ (ih true)
    · rw [List.length_append, List.length_cons]
      exact Nat.le_trans (Nat.succ_le_succ (ih false)) (Nat.le_add_left ..)

end

section

variable {width deepest index line column k : Nat} {breaks ds : List Char}

theorem readBreaks_breaks {bs : List Char} (h : ∀ b ∈ bs, isBreak b = true) :
    readBreaks width deepest breaks (listFrom index line 0 (bs ++ ds)) =
      readBreaks width deepest (bs.reverse ++ breaks) (listFrom (index + bs.length) (line + bs.length) 0 ds) := by
  induction bs generalizing index line breaks with
  | nil => rfl
  | cons b bs ih =>
    obtain ⟨hb, hbs⟩ := List.forall_mem_cons.1 h
    have hspace : b ≠ ' ' := fun h => absurd hb (h ▸ by decide)
    have htab : b ≠ '\t' := fun h => absurd hb (h ▸ by decide)
    rw [List.cons_append, listFrom_break hb, readBreaks]
    simp only [hb, beq_false_of_ne hspace, beq_false_of_ne htab, Bool.and_false, if_true,
      if_neg Bool.false_ne_true, ih hbs]
    simp [Nat.add_assoc, Nat.add_comm 1]

theorem readBreaks_indent (hwidth : width = 0 ∨ column + k ≤ width) (hdeepest : column ≤ deepest) :
    readBreaks width deepest breaks (listFrom index line column (List.replicate k ' ' ++ ds)) =
      readBreaks width (max deepest (column + k)) breaks (listFrom (index + k) line (column + k) ds) := by
  induction k generalizing index column deepest with
  | zero => rw [Nat.add_zero, max_eq_left hdeepest]; rfl
  | succ k ih =>
    have hindex : index + (k + 1) = index + 1 + k := by omega
    have hcolumn : column + (k + 1) = column + 1 + k := by omega
    have hinside : (width == 0 || decide (column < width)) = true := by
      simp only [Bool.or_eq_true, beq_iff_eq, decide_eq_true_eq]
      omega
    have hnext : width = 0 ∨ column + 1 + k ≤ width := hwidth.imp_right fun h => by omega
    have hmax : max (max deepest (column + 1)) (column + 1 + k) = max deepest (column + 1 + k) := by omega
    rw [List.replicate_succ, List.cons_append, listFrom_cons rfl, readBreaks, hindex, hcolumn]
    simp only [hinside, Bool.true_and, beq_self_eq_true, if_true]
    rw [ih hnext (Nat.le_max_right ..), hmax]

theorem readBreaks_cons {c : Char} (hbreak : isBreak c = false)
    (h : isBlank c = false ∨ width ≠ 0 ∧ width ≤ column) :
    readBreaks width deepest breaks (listFrom index line column (c :: ds)) =
      some (breaks.reverse, deepest, listFrom index line column (c :: ds)) := by
  rw [listFrom_cons hbreak, readBreaks]
  rcases h with h | ⟨hne, hle⟩
  · rw [isBlank, Bool.or_eq_false_iff] at h
    simp [h, hbreak]
  · simp [hne, Nat.not_lt.2 hle, hbreak]

theorem readBreaks_atMargin (h : AtMargin ds) :
    readBreaks width deepest breaks (listFrom index line column ds) =
      some (breaks.reverse, deepest, listFrom index line column ds) := by
  cases ds with
  | nil => rfl
  | cons d ds =>
    have hd := Bool.or_eq_false_iff.1 (h d rfl)
    exact readBreaks_cons hd.2 (.inl hd.1)

theorem readBreaks_end {bs : List Char} (hbs : ∀ b ∈ bs, isBreak b = true) (hds : AtMargin ds)
    (hk : width = 0 ∨ k ≤ width) :
    readBreaks width 0 [] (listFrom index line 0 (bs ++ (List.replicate k ' ' ++ ds))) =
      some (bs, k, listFrom (index + bs.length + k) (line + bs.length) k ds) := by
  have hwidth : width = 0 ∨ 0 + k ≤ width := by rwa [Nat.zero_add]
  rw [readBreaks_breaks hbs, readBreaks_indent hwidth (Nat.le_refl 0), readBreaks_atMargin hds, List.append_nil,
    List.reverse_reverse, Nat.zero_add, Nat.max_eq_right (Nat.zero_le k)]

theorem readBreaks_front {bs : List Char} (hbs : ∀ b ∈ bs, isBreak b = true) {c : Char} (hc : isBreak c = false)
    (hpos : k ≠ 0) (hwidth : width = k ∨ width = 0 ∧ isBlank c = false) (cs : List Char) :
    readBreaks width 0 [] (listFrom index line 0 (bs ++ (literalLines k true (c :: cs) ++ ds))) =
      some (bs, k, listFrom (index + bs.length + k) (line + bs.length) k (literalLines k false (c :: cs) ++ ds)) := by
  have hindent : width = 0 ∨ 0 + k ≤ width := by
    rw [Nat.zero_add]
    exact hwidth.symm.imp And.left ge_of_eq
  have hstop : isBlank c = false ∨ width ≠ 0 ∧ width ≤ k := by
    rcases hwidth with rfl | ⟨-, hblank⟩
    · exact .inr ⟨hpos, Nat.le_refl width⟩
    · exact .inl hblank
  rw [readBreaks_breaks hbs, literalLines_indented hc, List.append_assoc, readBreaks_indent hindent (Nat.le_refl 0),
    literalLines_visible hc, List.cons_append, Nat.zero_add, readBreaks_cons hc hstop, List.append_nil,
    List.reverse_reverse, Nat.max_eq_right (Nat.zero_le k)]

end

section

variable {width : Nat}

theorem readBlockLines_line {c b : Char} {cs : List Char} (hcs : ∀ d ∈ c :: cs, isBreak d = false)
    (hb : isBreak b = true) (fuel : Nat) (s : BlockState) (index line : Nat) (ds : List Char) :
    readBlockLines false width (fuel + 1) s (listFrom index line width (c :: cs ++ b :: ds)) =
      (readBreaks width 0 [] (listFrom (index + (c :: cs).length + 1) (line + 1) 0 ds)).bind fun (others, _, rest) =>
        readBlockLines false width fuel
          ⟨[b], isBlank c, others, (c :: cs).reverse ++ ((s.leading ++ s.others).reverse ++ s.before)⟩ rest := by
  have hall : ∀ g ∈ listFrom index line width (c :: cs), (!isBreak g.char) = true := by
    intro g hg
    have hmem : g.char ∈ (listFrom index line width (c :: cs)).map char := List.mem_map_of_mem hg
    rw [map_char_listFrom] at hmem
    rw [hcs _ hmem, Bool.not_false]
  have htake : chars ((listFrom index line width (c :: cs ++ b :: ds)).takeWhile (!isBreak ·.char)) = c :: cs := by
    rw [listFrom_append hcs, List.takeWhile_append_of_pos hall, listFrom_break hb,
      List.takeWhile_cons_of_neg (by simp [hb]), List.append_nil]
    exact map_char_listFrom ..
  have hskip : skipLine (listFrom index line width (c :: cs ++ b :: ds)) =
      ⟨b, index + (c :: cs).length, line, width + (c :: cs).length⟩ ::
        listFrom (index + (c :: cs).length + 1) (line + 1) 0 ds := by
    rw [skipLine, listFrom_append hcs, List.dropWhile_append_of_pos hall, listFrom_break hb,
      List.dropWhile_cons_of_neg (by simp [hb])]
  have hfirst : listFrom index line width (c :: cs ++ b :: ds) =
      ⟨c, index, line, width⟩ :: listFrom (index + 1) line (width + 1) (cs ++ b :: ds) :=
    listFrom_cons (List.forall_mem_cons.1 hcs).1 _
  rw [hfirst] at htake hskip ⊢
  rw [readBlockLines]
  simp only [ne_eq, not_true, if_false, htake, hskip, BlockState.joined, Bool.false_and, Glyph.next,
    List.head?_cons, Option.map_some, Option.toList_some, List.tail_cons]
  rfl

theorem parted (p : Char → Bool) (cs : List Char) :
    ∃ xs ys, cs = xs ++ ys ∧ (∀ x ∈ xs, p x = true) ∧ ∀ y ∈ ys.head?, p y = false := by
  refine ⟨cs.takeWhile p, cs.dropWhile p, List.takeWhile_append_dropWhile.symm, fun x hx => List.mem_takeWhile_imp hx,
    fun y hy => ?_⟩
  have hdrop := List.head?_dropWhile_not p cs
  rw [Option.mem_def.1 hy] at hdrop
  exact hdrop

theorem exists_line {c : Char} (hc : isBreak c = false) (cs : List Char) : ∃ word b bs rest,
    (∀ d ∈ c :: word, isBreak d = false) ∧ isBreak b = true ∧ (∀ d ∈ bs, isBreak d = true) ∧
    (∀ d ∈ rest.head?, isBreak d = false) ∧ rest.length ≤ cs.length ∧
    literalLines width false (c :: cs) = c :: word ++ b :: (bs ++ literalLines width true rest) ∧
    closed false (c :: cs) = c :: word ++ b :: (bs ++ closed true rest) := by
  obtain ⟨word, behind, rfl, hword, hbehind⟩ := parted (!isBreak ·) cs
  have hline : ∀ d ∈ c :: word, isBreak d = false :=
    List.forall_mem_cons.2 ⟨hc, fun d hd => by simpa using hword d hd⟩
  rw [← List.cons_append, literalLines_line hline, closed_line hline]
  cases behind with
  | nil => exact ⟨word, '\n', [], [], hline, rfl, nofun, nofun, Nat.zero_le _, rfl, rfl⟩
  | cons b behind =>
    have hb : isBreak b = true := by simpa using hbehind b rfl
    obtain ⟨bs, rest, rfl, hbs, hrest⟩ := parted isBreak behind
    refine ⟨word, b, bs, rest, hline, hb, hbs, hrest, ?_, ?_, ?_⟩
    · simp only [List.length_append, List.length_cons]
      omega
    · rw [literalLines, if_pos hb, literalLines_breaks hbs]
    · rw [closed, hb, closed_breaks hbs]

theorem readBlockLines_of_ne {k : Nat} (hk : k ≠ width) (fuel : Nat) (s : BlockState) (index line : Nat)
    (ds : List Char) :
    readBlockLines false width fuel s (listFrom index line k ds) = some (s, listFrom index line k ds) := by
  cases fuel with
  | zero => rfl
  | succ fuel =>
    cases ds with
    | nil => rfl
    | cons d ds =>
      rw [listFrom, readBlockLines]
      exact if_pos hk

theorem readBlockLines_literalLines {c : Char} {cs ds : List Char} (hc : isBreak c = false) (hds : AtMargin ds)
    {k : Nat} (hk : k < width) {fuel : Nat} (hfuel : cs.length < fuel) (s : BlockState) (index line : Nat) :
    ∃ text d b others afterBlank index' line', closed false (c :: cs) = text ++ d :: b :: others ∧
      isBreak d = false ∧ isBreak b = true ∧ (∀ e ∈ others, isBreak e = true) ∧
      readBlockLines false width fuel s
          (listFrom index line width (literalLines width false (c :: cs) ++ (List.replicate k ' ' ++ ds))) =
        some (⟨[b], afterBlank, others, d :: (text.reverse ++ ((s.leading ++ s.others).reverse ++ s.before))⟩,
          listFrom index' line' k ds) := by
  induction fuel generalizing c cs s index line with
  | zero => exact absurd hfuel (Nat.not_lt_zero _)
  | succ fuel ih =>
    obtain ⟨word, b, bs, rest, hline, hb, hbs, hrest, hlen, htext, hclosed⟩ := @exists_line width c hc cs
    have hlines : literalLines width false (c :: cs) ++ (List.replicate k ' ' ++ ds) =
        c :: word ++ b :: (bs ++ (literalLines width true rest ++ (List.replicate k ' ' ++ ds))) := by
      rw [htext]
      simp
    rw [hlines, hclosed, readBlockLines_line hline hb]
    cases rest with
    | nil =>
      rw [literalLines, if_pos rfl, List.nil_append, readBreaks_end hbs hds (.inr hk.le), Option.bind_some]
      dsimp only
      rw [readBlockLines_of_ne hk.ne]
      obtain h | ⟨text, d, h⟩ := List.eq_nil_or_concat (c :: word)
      · cases h
      · have hd : isBreak d = false := hline d (h ▸ by simp)
        refine ⟨text, d, b, bs, isBlank c, index + (c :: word).length + 1 + bs.length + k, line + 1 + bs.length, ?_, hd,
          hb, hbs, by rw [h]; simp⟩
        rw [h, closed]
        simp
    | cons c' cs' =>
      have hc' := hrest c' rfl
      obtain ⟨text, d, b', others, afterBlank, index', line', hclosed', hd, hb', hothers, hread⟩ := ih hc'
        (show cs'.length < fuel by rw [List.length_cons] at hlen; omega)
        ⟨[b], isBlank c, bs, (c :: word).reverse ++ ((s.leading ++ s.others).reverse ++ s.before)⟩
        (index + (c :: word).length + 1 + bs.length + width) (line + 1 + bs.length)
      rw [readBreaks_front hbs hc' (Nat.ne_zero_of_lt hk) (.inl rfl), Option.bind_some]
      refine ⟨c :: word ++ b :: (bs ++ text), d, b', others, afterBlank, index', line', ?_, hd, hb', hothers, ?_⟩
      · rw [show closed true (c' :: cs') = closed false (c' :: cs') from rfl, hclosed']
        simp
      · dsimp only
        rw [hread]
        simp

end

def Chomp.sign : Chomp → List Char
  | strip => ['-']
  | clip => []
  | keep => ['+']

def Chomp.ofText (cs : List Char) : Chomp :=
  match cs.reverse with
  | c :: rest =>
    if !isBreak c then strip else match rest with
      | [] => keep
      | d :: _ => if isBreak d then keep else clip
  | [] => strip

theorem literalSigns_eq (cs : List Char) :
    literalSigns cs = (if isMargin cs.head? then ['2'] else []) ++ (Chomp.ofText cs).sign := by
  unfold literalSigns Chomp.ofText
  congr 1
  rcases cs.reverse with _ | ⟨c, _ | ⟨d, rest⟩⟩
  · rfl
  · dsimp only
    cases isBreak c <;> rfl
  · dsimp only
    cases isBreak c <;> cases isBreak d <;> rfl

theorem blockSigns?_literalSigns (index line column : Nat) (cs ds : List Char) : ∃ index' column',
    blockSigns? (listFrom index line column (literalSigns cs ++ '\n' :: ds)) =
      some (Chomp.ofText cs, if isMargin cs.head? then 2 else 0, listFrom index' line column' ('\n' :: ds)) := by
  rw [literalSigns_eq]
  cases isMargin cs.head? <;> cases Chomp.ofText cs <;> exact ⟨_, _, rfl⟩

section

variable {cs text others : List Char} {b c d : Char}

theorem ofText_visible (hc : isBreak c = false) (cs : List Char) : Chomp.ofText (cs ++ [c]) = .strip := by
  simp [Chomp.ofText, hc]

theorem ofText_break (hb : isBreak b = true) (hd : isBreak d = false) (cs : List Char) :
    Chomp.ofText (cs ++ [d, b]) = .clip := by
  simp [Chomp.ofText, hb, hd]

theorem ofText_breaks (hcs : cs ≠ []) (h : ∀ e ∈ cs, isBreak e = true) (hb : isBreak b = true) (text : List Char) :
    Chomp.ofText (text ++ (cs ++ [b])) = .keep := by
  obtain h' | ⟨cs', e, rfl⟩ := List.eq_nil_or_concat cs
  · exact absurd h' hcs
  · have he : isBreak e = true := h e (by simp)
    simp [Chomp.ofText, hb, he]

theorem ofText_allBreaks (hcs : cs ≠ []) (h : ∀ e ∈ cs, isBreak e = true) : Chomp.ofText cs = .keep := by
  obtain h' | ⟨cs', b, rfl⟩ := List.eq_nil_or_concat cs
  · exact absurd h' hcs
  · rw [List.concat_eq_append] at h ⊢
    obtain ⟨hcs', hb⟩ := List.forall_mem_append.1 h
    cases cs' with
    | nil => simp [Chomp.ofText, hb b List.mem_cons_self]
    | cons c cs' => exact ofText_breaks (List.cons_ne_nil c cs') hcs' (hb b List.mem_cons_self) []

theorem apply_ofText (h : closed true cs = text ++ d :: b :: others) (hd : isBreak d = false) (hb : isBreak b = true)
    (hothers : ∀ e ∈ others, isBreak e = true) : text ++ d :: (Chomp.ofText cs).apply [b] others = cs := by
  obtain rfl | ⟨init, x, rfl⟩ := List.eq_nil_or_concat cs
  · simp [closed] at h
  rw [List.concat_eq_append] at h ⊢
  rw [closed_append] at h
  obtain rfl | ⟨others, y, rfl⟩ := List.eq_nil_or_concat others
  · cases hx : isBreak x with
    | false =>
      rw [hx] at h
      have hcs : init ++ [x] = text ++ [d] :=
        (List.append_inj' (show (init ++ [x]) ++ ['\n'] = (text ++ [d]) ++ [b] by simpa [closed] using h) rfl).1
      rw [hcs, ofText_visible hd]
      rfl
    | true =>
      have hcs : init ++ [x] = text ++ [d, b] := by simpa [hx, closed] using h
      rw [hcs, ofText_break hb hd]
      rfl
  · rw [List.concat_eq_append] at h hothers
    obtain ⟨hothers, hy⟩ := List.forall_mem_append.1 hothers
    have hbreaks : ∀ e ∈ b :: others, isBreak e = true := List.forall_mem_cons.2 ⟨hb, hothers⟩
    cases hx : isBreak x with
    | false =>
      rw [hx] at h
      have hcs : init ++ [x] = text ++ [d] ++ (b :: others) :=
        (List.append_inj' (show (init ++ [x]) ++ ['\n'] = (text ++ [d] ++ (b :: others)) ++ [y] by
          simpa [closed] using h) rfl).1
      have hmem : x ∈ b :: others := by
        obtain h' | ⟨bs, e, h'⟩ := List.eq_nil_or_concat (b :: others)
        · cases h'
        · rw [h', List.concat_eq_append, ← List.append_assoc] at hcs
          rw [h', List.singleton_inj.1 (List.append_inj' hcs rfl).2]
          simp
      exact absurd (hbreaks x hmem) (by rw [hx]; decide)
    | true =>
      have hcs : init ++ [x] = text ++ [d] ++ ((b :: others) ++ [y]) := by simpa [hx, closed] using h
      rw [hcs, ofText_breaks (List.cons_ne_nil b others) hbreaks (hy y List.mem_cons_self)]
      simp [Chomp.apply]

end

theorem endLine?_break (index line column : Nat) (ds : List Char) :
    endLine? (listFrom index line column ('\n' :: ds)) = some (listFrom (index + 1) (line + 1) 0 ds) := rfl

section

variable {cs ds : List Char} {margin index line column k : Nat}

theorem readBlock_signs (margin index line column : Nat) (cs ds : List Char) : ∃ index', ∀ {others : List Char}
    {deepest : Nat} {gs rest : List Glyph} {s : BlockState},
    readBreaks (if isMargin cs.head? then margin + 2 else 0) 0 [] (listFrom index' (line + 1) 0 ds) =
      some (others, deepest, gs) → isMargin cs.head? = true ∨ deepest = margin + 2 →
    readBlockLines false (margin + 2) gs.length ⟨[], false, others, []⟩ gs = some (s, rest) →
    readBlock false (margin + 1) (listFrom index line column (literalSigns cs ++ '\n' :: ds)) =
      some (s.before.reverse ++ (Chomp.ofText cs).apply s.leading s.others, rest) := by
  obtain ⟨index', column', hsigns⟩ := blockSigns?_literalSigns index line column cs ds
  refine ⟨index' + 1, fun {_ deepest _ _ _} hbreaks hwidth hlines => ?_⟩
  unfold readBlock
  rw [hsigns]
  simp only [Option.bind_eq_bind, Option.bind_some, endLine?_break]
  cases hmargin : isMargin cs.head? with
  | true =>
    rw [hmargin] at hbreaks
    simp only [if_true, if_neg (show ¬2 = 0 by decide), Nat.add_sub_cancel] at hbreaks ⊢
    simp only [hbreaks, Option.bind_some, if_neg (Nat.succ_ne_zero (margin + 1)), hlines]
    rfl
  | false =>
    rw [hmargin] at hbreaks hwidth
    have hdeepest : deepest = margin + 2 := hwidth.resolve_left Bool.false_ne_true
    have hmax : max (max (margin + 2) (margin + 1)) 1 = margin + 2 := by omega
    simp only [if_neg Bool.false_ne_true, if_true] at hbreaks ⊢
    simp only [hbreaks, Option.bind_some, hdeepest, hmax, hlines]
    rfl

theorem readBlock_breaks {bs : List Char} (hne : bs ≠ []) (hbs : ∀ b ∈ bs, isBreak b = true) (hds : AtMargin ds)
    (hk : k ≤ margin) : ∃ index' line', readBlock false (margin + 1)
      (listFrom index line column (literalSigns bs ++ '\n' :: (bs ++ (List.replicate k ' ' ++ ds)))) =
        some (bs, listFrom index' line' k ds) := by
  obtain ⟨index', hread⟩ := readBlock_signs margin index line column bs (bs ++ (List.replicate k ' ' ++ ds))
  have hmargin : isMargin bs.head? = true := by
    obtain ⟨b, bs, rfl⟩ := List.exists_cons_of_ne_nil hne
    simp [isMargin, hbs b List.mem_cons_self]
  have hwidth : (if isMargin bs.head? then margin + 2 else 0) = 0 ∨
      k ≤ if isMargin bs.head? then margin + 2 else 0 := by
    rw [hmargin, if_pos rfl]
    exact .inr (Nat.le_add_right_of_le hk)
  refine ⟨index' + bs.length + k, line + 1 + bs.length, ?_⟩
  rw [hread (readBreaks_end hbs hds hwidth) (.inl hmargin) (readBlockLines_of_ne (by omega) ..),
    ofText_allBreaks hne hbs]
  rfl

theorem readBlock_visible {bs : List Char} {c : Char} (hbs : ∀ b ∈ bs, isBreak b = true) (hc : isBreak c = false)
    (hgap : isGap c = (c == ' ' || isBreak c)) (hds : AtMargin ds) (hk : k ≤ margin) :
    ∃ index' line', readBlock false (margin + 1) (listFrom index line column (literalSigns (bs ++ c :: cs) ++
      '\n' :: (bs ++ (literalLines (margin + 2) true (c :: cs) ++ (List.replicate k ' ' ++ ds))))) =
        some (bs ++ c :: cs, listFrom index' line' k ds) := by
  obtain ⟨index₁, hread⟩ := readBlock_signs margin index line column (bs ++ c :: cs)
    (bs ++ (literalLines (margin + 2) true (c :: cs) ++ (List.replicate k ' ' ++ ds)))
  have hwidth : (if isMargin (bs ++ c :: cs).head? then margin + 2 else 0) = margin + 2 ∨
      (if isMargin (bs ++ c :: cs).head? then margin + 2 else 0) = 0 ∧ isBlank c = false := by
    cases hmargin : isMargin (bs ++ c :: cs).head? with
    | true => exact .inl rfl
    | false =>
      cases bs with
      | nil =>
        simp only [isMargin, List.nil_append, List.head?_cons, Option.any_some, ← hgap] at hmargin
        exact .inr ⟨rfl, (Bool.or_eq_false_iff.1 hmargin).1⟩
      | cons b bs => simp [isMargin, hbs b List.mem_cons_self] at hmargin
  have hfuel : cs.length < (listFrom (index₁ + bs.length + (margin + 2)) (line + 1 + bs.length) (margin + 2)
      (literalLines (margin + 2) false (c :: cs) ++ (List.replicate k ' ' ++ ds))).length := by
    rw [length_listFrom, List.length_append]
    exact Nat.lt_of_lt_of_le (length_le_literalLines false (c :: cs)) (Nat.le_add_right ..)
  obtain ⟨text, d, b, others, afterBlank, index', line', hclosed, hd, hb, hothers, hlines⟩ :=
    readBlockLines_literalLines hc hds (show k < margin + 2 by omega) hfuel ⟨[], false, bs, []⟩
      (index₁ + bs.length + (margin + 2)) (line + 1 + bs.length)
  have hcs : closed true (bs ++ c :: cs) = (bs ++ text) ++ d :: b :: others := by
    rw [closed_breaks hbs, show closed true (c :: cs) = closed false (c :: cs) from rfl, hclosed, List.append_assoc]
  refine ⟨index', line', ?_⟩
  rw [hread (readBreaks_front hbs hc (Nat.succ_ne_zero _) hwidth cs) (.inr rfl) hlines]
  simpa using apply_ofText hcs hd hb hothers

theorem readBlock_literal (hcs : cs ≠ []) (hprint : ∀ c ∈ cs, isPrintable c = true) (hds : AtMargin ds)
    (hk : k ≤ margin) : ∃ index' line', readBlock false (margin + 1) (listFrom index line column
      (literalSigns cs ++ '\n' :: (literalLines (margin + 2) true cs ++ (List.replicate k ' ' ++ ds)))) =
        some (cs, listFrom index' line' k ds) := by
  obtain ⟨bs, rest, rfl, hbs, hrest⟩ := parted isBreak cs
  rw [literalLines_breaks hbs, List.append_assoc]
  cases rest with
  | nil =>
    rw [List.append_nil] at hcs ⊢
    exact readBlock_breaks hcs hbs hds hk
  | cons c rest => exact readBlock_visible hbs (hrest c rfl) (isGap_of_isPrintable (hprint c (by simp))) hds hk

end

end FilterQuery.Yaml
