/-
Passes over a text that is made of two parts.

A pass carries what is open from the first part into the second. So what is
found in the whole is what is found in the first part, followed by what is
found in the second part when it is read with the first part's open groups.

* `Nesting.after`: what is open after a text.
* `Text.cut_append`: the pieces of the whole, with the last piece of the first
  part running on into the first piece of the second (`Text.runOn`).
* `Text.cut_append_delimiter`: if nothing is left open, a delimiter between the
  parts keeps their pieces apart.
* `Text.length_cut_append_delimiter_le`: if a bracket is left open, the whole
  has fewer pieces than the parts have together.
* `Text.lastExposed_append_of_some`, `Text.lastExposed_append_eq_none`: the last
  exposed place of a pattern in the whole.
-/
import SelectorPath.Proofs.Text.Balanced

namespace SelectorPath

namespace Nesting

/-- What is open after a text. -/
def after (s : Nesting) (text : List Char) : Nesting := text.foldl (step .any) s

@[simp] lemma after_nil (s : Nesting) : s.after [] = s := rfl

@[simp] lemma after_cons (s : Nesting) (c : Char) (text : List Char) :
    s.after (c :: text) = (s.step .any c).after text := rfl

/-- A pass goes on where it was. -/
@[simp] lemma after_append (s : Nesting) (left right : List Char) :
    s.after (left ++ right) = (s.after left).after right :=
  List.foldl_append

lemma eq_top {s : Nesting} (hdepth : s.depth = 0) (hquote : s.quote = none) : s = .top := by
  obtain ⟨depth, quote⟩ := s
  obtain rfl : depth = 0 := hdepth
  obtain rfl : quote = none := hquote
  rfl

/-- A symbol that opens and closes nothing leaves everything as it is. -/
lemma step_eq_self {c : Char} (h : Text.IsPlain c) (s : Nesting) : s.step .any c = s := by
  obtain ⟨depth, quote⟩ := s
  cases quote with
  | none => exact Text.step_of_isPlain h depth
  | some q => simp [step, Text.of?_of_isPlain h]

/-- Plain symbols leave a pass where it was. -/
lemma after_eq_self {text : List Char} (h : ∀ c ∈ text, Text.IsPlain c) (s : Nesting) :
    s.after text = s := by
  induction text with
  | nil => rfl
  | cons c text ih =>
      obtain ⟨hc, htext⟩ := List.forall_mem_cons.mp h
      rw [after_cons, step_eq_self hc, ih htext]

/-- A deeper pass stays deeper, and sees the same quotations. -/
lemma step_of_depth_le {s t : Nesting} (hquote : s.quote = t.quote) (hdepth : s.depth ≤ t.depth)
    (c : Char) :
    (s.step .any c).quote = (t.step .any c).quote ∧
      (s.step .any c).depth ≤ (t.step .any c).depth := by
  rw [step, step, ← hquote]
  split
  · split_ifs
    · exact ⟨rfl, hdepth⟩
    · exact ⟨hquote, hdepth⟩
  · split
    · exact ⟨rfl, hdepth⟩
    · split_ifs
      · exact ⟨rfl, Nat.succ_le_succ hdepth⟩
      · exact ⟨rfl, Nat.sub_le_sub_right hdepth 1⟩
      · exact ⟨hquote, hdepth⟩

/-- What is exposed to a deeper pass is exposed to the other one too. -/
lemma exposes_of_depth_le {s t : Nesting} (hquote : s.quote = t.quote)
    (hdepth : s.depth ≤ t.depth) {c : Char} (h : t.exposes .any c = true) :
    s.exposes .any c = true := by
  simp only [exposes, Bool.and_eq_true, beq_iff_eq] at h ⊢
  obtain ⟨⟨⟨⟨hzero, hnone⟩, hmark⟩, hopening⟩, hclosing⟩ := h
  have hzero' : s.depth = 0 := by omega
  exact ⟨⟨⟨⟨hzero', hquote ▸ hnone⟩, hmark⟩, hopening⟩, hclosing⟩

end Nesting

namespace Text

variable {delimiter : Char}

/-! ### Pieces that run on -/

/-- The pieces of two parts of a text: the last piece of the first part runs on
into the first piece of the second. -/
def runOn (piece : List Char) (more : List (List Char)) (found : List Char × List (List Char)) :
    List Char × List (List Char) :=
  match more with
  | [] => prepend piece found
  | next :: more => (piece, (runOn next more found).1 :: (runOn next more found).2)

/-- Two texts in a row have one piece less than both together. -/
lemma length_runOn (piece : List Char) (more : List (List Char))
    (found : List Char × List (List Char)) :
    (runOn piece more found).2.length = more.length + found.2.length := by
  induction more generalizing piece with
  | nil => simp [runOn, prepend]
  | cons next more ih =>
      have hmore := ih next
      simp only [runOn, List.length_cons] at hmore ⊢
      omega

/-- A delimiter in front of the second part ends the last piece of the
first. -/
lemma runOn_delimiter (piece : List Char) (more : List (List Char)) (next : List Char)
    (others : List (List Char)) :
    runOn piece more ([], next :: others) = (piece, more ++ next :: others) := by
  induction more generalizing piece with
  | nil => simp [runOn, prepend]
  | cons p more ih => simp [runOn, ih p]

lemma runOn_cons (c : Char) (piece : List Char) (more : List (List Char))
    (found : List Char × List (List Char)) :
    runOn (c :: piece) more found = prepend [c] (runOn piece more found) := by
  cases more <;> simp [runOn, prepend]

/-! ### The pass over two parts -/

/-- What comes apart ends outside of all quotations. -/
lemma quote_after_of_cut {s : Nesting} {text : List Char} {found : List Char × List (List Char)}
    (h : cut delimiter s text = some found) : (s.after text).quote = none := by
  induction text generalizing s found with
  | nil =>
      rw [cut] at h
      split_ifs at h with hnone
      exact Option.isNone_iff_eq_none.mp hnone
  | cons c text ih =>
      rw [cut] at h
      obtain ⟨found', hcut, -⟩ := Option.map_eq_some_iff.mp h
      exact ih hcut

/-- If the first part comes apart, the whole comes apart as both parts do. -/
theorem cut_append {s : Nesting} {left right piece : List Char} {more : List (List Char)}
    (h : cut delimiter s left = some (piece, more)) :
    cut delimiter s (left ++ right) =
      (cut delimiter (s.after left) right).map (runOn piece more) := by
  induction left generalizing s piece more with
  | nil =>
      rw [cut] at h
      split_ifs at h
      obtain ⟨rfl, rfl⟩ := by simpa using h
      have hid : runOn [] [] = id := rfl
      rw [hid, Option.map_id, List.nil_append, Nesting.after_nil, id]
  | cons c left ih =>
      rw [cut] at h
      obtain ⟨⟨piece', more'⟩, hcut, hfound⟩ := Option.map_eq_some_iff.mp h
      rw [List.cons_append, cut, ih hcut, Option.map_map, Nesting.after_cons]
      congr 1
      funext rest
      rw [Function.comp_apply]
      dsimp only at hfound ⊢
      split_ifs at hfound ⊢
      · obtain ⟨rfl, rfl⟩ := Prod.mk.inj hfound
        rfl
      · obtain ⟨rfl, rfl⟩ := Prod.mk.inj hfound
        rw [runOn_cons]
        rfl

/-- Where the first part leaves nothing open, a delimiter keeps the pieces of
two parts apart. -/
theorem cut_append_delimiter (hplain : IsPlain delimiter) {left right : List Char}
    (hclosed : Nesting.top.after left = .top)
    {piece next : List Char} {more others : List (List Char)}
    (hleft : cut delimiter .top left = some (piece, more))
    (hright : cut delimiter .top right = some (next, others)) :
    cut delimiter .top (left ++ delimiter :: right) = some (piece, more ++ next :: others) := by
  rw [cut_append hleft, hclosed, cut_delimiter hplain, hright]
  simp [runOn_delimiter]

/-- A pass that begins deeper finds no more delimiters. -/
theorem length_cut_le_of_depth_le {s t : Nesting} (hquote : s.quote = t.quote)
    (hdepth : s.depth ≤ t.depth) {text : List Char} {found deeper : List Char × List (List Char)}
    (hs : cut delimiter s text = some found) (ht : cut delimiter t text = some deeper) :
    deeper.2.length ≤ found.2.length := by
  induction text generalizing s t found deeper with
  | nil =>
      rw [cut] at hs ht
      split_ifs at hs ht
      obtain rfl := Option.some.inj hs
      obtain rfl := Option.some.inj ht
      exact Nat.le_refl _
  | cons c text ih =>
      rw [cut] at hs ht
      obtain ⟨found', hs', rfl⟩ := Option.map_eq_some_iff.mp hs
      obtain ⟨deeper', ht', rfl⟩ := Option.map_eq_some_iff.mp ht
      obtain ⟨hquote', hdepth'⟩ := Nesting.step_of_depth_le hquote hdepth c
      have hle := ih hquote' hdepth' hs' ht'
      dsimp only
      split_ifs with hdeep hexposed
      · exact Nat.succ_le_succ hle
      · rw [Bool.and_eq_true] at hdeep
        rw [Nesting.exposes_of_depth_le hquote hdepth hdeep.1, hdeep.2] at hexposed
        exact absurd rfl hexposed
      · exact Nat.le_succ_of_le hle
      · exact hle

/-- A bracket left open hides the delimiter after the first part, and nothing
in the second part makes up for it. -/
theorem length_cut_append_delimiter_le (hplain : IsPlain delimiter) {left right : List Char}
    (hopen : (Nesting.top.after left).depth ≠ 0)
    {piece next whole : List Char} {more others pieces : List (List Char)}
    (hleft : cut delimiter .top left = some (piece, more))
    (hright : cut delimiter .top right = some (next, others))
    (h : cut delimiter .top (left ++ delimiter :: right) = some (whole, pieces)) :
    pieces.length ≤ more.length + others.length := by
  have hquote := quote_after_of_cut hleft
  rw [cut_append hleft] at h
  generalize Nesting.top.after left = s at hopen hquote h
  obtain ⟨depth, quote⟩ := s
  obtain rfl : quote = none := hquote
  rw [cut_plain hplain (.inl (Nat.pos_of_ne_zero hopen))] at h
  obtain ⟨_, hhidden, hwhole⟩ := Option.map_eq_some_iff.mp h
  obtain ⟨deeper, hdeeper, rfl⟩ := Option.map_eq_some_iff.mp hhidden
  have hle : deeper.2.length ≤ others.length :=
    length_cut_le_of_depth_le (s := .top) (t := ⟨depth, none⟩) rfl depth.zero_le hright hdeeper
  have hlength : pieces.length = more.length + deeper.2.length := by
    rw [← show (runOn piece more (prepend [delimiter] deeper)).2 = pieces from
      congrArg Prod.snd hwhole, length_runOn]
    rfl
  omega

/-! ### The last exposed place -/

section LastExposed

variable {pattern : List Char} {s : Nesting} {left right : List Char}

/-- A later place comes before an earlier one. -/
lemma lastExposed_cons (c : Char) (rest : List Char) :
    lastExposed pattern s (c :: rest) =
      match lastExposed pattern (s.step .any c) rest with
      | some i => some (i + 1)
      | none => if s.exposes .any c && pattern.isPrefixOf (c :: rest) then some 0 else none :=
  rfl

/-- A place in the second part comes after all places in the first. -/
lemma lastExposed_append_of_some {i : Nat}
    (h : lastExposed pattern (s.after left) right = some i) :
    lastExposed pattern s (left ++ right) = some (left.length + i) := by
  induction left generalizing s with
  | nil => simpa using h
  | cons c left ih =>
      rw [List.cons_append, lastExposed_cons, ih h, List.length_cons]
      simp only [Option.some.injEq]
      omega

/-- Where there is no place in the second part, the last one is in the first. -/
lemma lt_of_lastExposed_append (h : lastExposed pattern (s.after left) right = none) {i : Nat}
    (hi : lastExposed pattern s (left ++ right) = some i) : i < left.length := by
  induction left generalizing s i with
  | nil =>
      rw [List.nil_append] at hi
      rw [Nesting.after_nil, hi] at h
      simp at h
  | cons c left ih =>
      rw [List.cons_append, lastExposed_cons] at hi
      split at hi
      · next j hj =>
          have hlt := ih h hj
          obtain rfl := Option.some.inj hi
          simpa using hlt
      · split_ifs at hi
        obtain rfl := Option.some.inj hi
        simp

/-- Where there is no place at all, there is none in the second part. -/
lemma lastExposed_eq_none_of_append (h : lastExposed pattern s (left ++ right) = none) :
    lastExposed pattern (s.after left) right = none := by
  by_contra hne
  obtain ⟨i, hi⟩ := Option.ne_none_iff_exists'.mp hne
  rw [lastExposed_append_of_some hi] at h
  simp at h

/-- The pattern stands at the last exposed place. -/
lemma drop_of_lastExposed {text : List Char} {i : Nat}
    (h : lastExposed pattern s text = some i) :
    ∃ rest, text = text.take i ++ (pattern ++ rest) := by
  induction text generalizing s i with
  | nil => simp [lastExposed] at h
  | cons c text ih =>
      rw [lastExposed_cons] at h
      split at h
      · next j hj =>
          obtain ⟨rest, hrest⟩ := ih hj
          obtain rfl := Option.some.inj h
          exact ⟨rest, by rw [List.take_succ_cons, List.cons_append, ← hrest]⟩
      · split_ifs at h with hhere
        obtain rfl := Option.some.inj h
        rw [Bool.and_eq_true, List.isPrefixOf_iff_prefix] at hhere
        obtain ⟨rest, hrest⟩ := hhere.2
        exact ⟨rest, by rw [List.take_zero, List.nil_append, hrest]⟩

variable {mark : Char}

lemma isPrefixOf_double {c : Char} {rest : List Char} :
    [mark, mark].isPrefixOf (c :: rest) = true ↔ mark = c ∧ mark ∈ rest.head? := by
  cases rest with
  | nil => simp
  | cons d rest =>
      rw [List.isPrefixOf_iff_prefix, List.cons_prefix_cons, List.cons_prefix_cons,
        List.head?_cons, Option.mem_some]
      exact ⟨fun h => ⟨h.1, h.2.1.symm⟩, fun h => ⟨h.1, h.2.symm, List.nil_prefix⟩⟩

/-- A doubled mark that is not exposed in the first part stays so when something
else comes after it that does not begin with the mark. -/
lemma lastExposed_append_eq_none {other : List Char} (hother : mark ∉ other.head?)
    (h : lastExposed [mark, mark] s (left ++ right) = none)
    (h' : lastExposed [mark, mark] (s.after left) other = none) :
    lastExposed [mark, mark] s (left ++ other) = none := by
  induction left generalizing s with
  | nil => exact h'
  | cons c left ih =>
      rw [List.cons_append, lastExposed_cons] at h ⊢
      split at h
      · simp at h
      · next hnone =>
          rw [ih hnone h']
          refine if_neg fun hhere => ?_
          split_ifs at h with hbefore
          rw [Bool.and_eq_true, isPrefixOf_double] at hhere hbefore
          obtain ⟨hexposed, hc, hnext⟩ := hhere
          -- the second mark is in the first part too, or else it begins `other`
          cases left with
          | nil => exact hother hnext
          | cons d left => exact hbefore ⟨hexposed, hc, hnext⟩

/-- Symbols that open and close nothing, and are no marks, expose no doubled
mark. -/
lemma lastExposed_eq_none_of_plain (hleft : ∀ c ∈ left, IsPlain c ∧ c ≠ mark)
    (h : lastExposed [mark, mark] s right = none) :
    lastExposed [mark, mark] s (left ++ right) = none := by
  induction left with
  | nil => exact h
  | cons c left ih =>
      obtain ⟨⟨hplain, hne⟩, hleft⟩ := List.forall_mem_cons.mp hleft
      rw [List.cons_append, lastExposed_cons, Nesting.step_eq_self hplain, ih hleft]
      simp [Ne.symm hne]

end LastExposed

end Text

end SelectorPath
