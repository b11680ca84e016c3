/-
Groups are read up to their own closing bracket.

A group is over at the first closing bracket that belongs to no group and no
quotation inside of it. So what is read of it are exactly the texts whose
quotations end and whose brackets have their partners.

* `Text.Grouped`: the grammar of such texts.
* `Text.readGroup_append_of_grouped`: reading goes over them as over a single
  symbol.
* `Text.Unwinds`, `Text.unwinds_of_readGroup`: what is read closes the groups
  that are open, one after the other.
* `Text.readGroup_eq_some_iff`: what is read of a group;
  `Text.readBracketed_eq_some_iff`, `Text.readParenthesized_eq_some_iff` for the
  two kinds of groups.
-/
import SelectorPath.Proofs.Text.Quotations

namespace SelectorPath

@[simp] lemma Grouping.closing_square : Grouping.square.closing = [']'] := rfl

@[simp] lemma Grouping.closing_round : Grouping.round.closing = [')'] := rfl

/-- Brackets are no quotation marks, and none both opens and closes. -/
structure Grouping.Proper (g : Grouping) : Prop where
  opening_plain : ∀ q : Quote, q.mark ∉ g.opening
  closing_plain : ∀ q : Quote, q.mark ∉ g.closing
  apart : ∀ c ∈ g.opening, c ∉ g.closing

lemma Grouping.proper_square : Grouping.square.Proper :=
  ⟨by simp [square], by rintro (_ | _) <;> decide, by simp [square]⟩

lemma Grouping.proper_round : Grouping.round.Proper :=
  ⟨by rintro (_ | _) <;> decide, by rintro (_ | _) <;> decide, by simp [round]⟩

section

variable {g : Grouping} {c : Char}

/-- A mark that opens a group opens no quotation. -/
lemma Grouping.Proper.of?_opening (hg : g.Proper) (h : c ∈ g.opening) : Quote.of? c = none := by
  cases hquote : Quote.of? c with
  | none => rfl
  | some q => exact absurd (Quote.of?_eq_some.mp hquote ▸ h) (hg.opening_plain q)

lemma Grouping.Proper.of?_closing (hg : g.Proper) (h : c ∈ g.closing) : Quote.of? c = none := by
  cases hquote : Quote.of? c with
  | none => rfl
  | some q => exact absurd (Quote.of?_eq_some.mp hquote ▸ h) (hg.closing_plain q)

end

namespace Text

/-- Texts whose quotations end and whose brackets have their partners. -/
inductive Grouped (g : Grouping) : List Char → Prop
  | nil : Grouped g []
  | other {c : Char} {rest : List Char} :
      Quote.of? c = none → c ∉ g.opening → c ∉ g.closing → Grouped g rest → Grouped g (c :: rest)
  | quoted (q : Quote) {inner rest : List Char} :
      q.mark ∉ inner → Grouped g rest → Grouped g (quotation q inner ++ rest)
  | group {o c : Char} {inner rest : List Char} :
      o ∈ g.opening → c ∈ g.closing → Grouped g inner → Grouped g rest →
        Grouped g (o :: (inner ++ c :: rest))

/-- By induction on how the first text is put together. -/
lemma Grouped.append {g : Grouping} {left right : List Char} (hl : Grouped g left)
    (hr : Grouped g right) : Grouped g (left ++ right) := by
  induction hl with
  | nil => exact hr
  | other hquote hopening hclosing _ ih => exact .other hquote hopening hclosing ih
  | quoted q hfree _ ih =>
      rw [List.append_assoc]
      exact .quoted q hfree ih
  | group ho hc hinner _ _ ih =>
      rw [List.cons_append, List.append_assoc, List.cons_append]
      exact .group ho hc hinner ih

/-- A balanced text is a possible argument. -/
lemma Grouped.of_balanced {outside : Char → Prop} {text : List Char} (h : Balanced outside text) :
    Grouped .round text := by
  induction h with
  | nil => exact .nil
  | @plain _ c hplain _ =>
      have hmarks : c ≠ '(' ∧ c ≠ ')' := by
        simp only [IsPlain, List.mem_cons, not_or] at hplain
        exact ⟨hplain.1, hplain.2.1⟩
      exact .other (of?_of_isPlain hplain) (by simpa [Grouping.round] using hmarks.1)
        (by simpa [Grouping.round] using hmarks.2) .nil
  | quoted q hfree => simpa [quotation] using Grouped.quoted q hfree .nil
  | group b _ ih =>
      cases b with
      | round => exact .group List.mem_cons_self List.mem_cons_self ih .nil
      | square =>
          -- square brackets are like any other symbol here
          exact .other (by decide) (by decide) (by decide)
            (ih.append (.other (by decide) (by decide) (by decide) .nil))
  | append _ _ ihl ihr => exact ihl.append ihr

section Pass

variable {g : Grouping} {depth : Nat} {c : Char}

lemma step_other (hquote : Quote.of? c = none) (hopening : c ∉ g.opening)
    (hclosing : c ∉ g.closing) : Nesting.step g ⟨depth, none⟩ c = ⟨depth, none⟩ := by
  simp [Nesting.step, hquote, isAnyOf_char, hopening, hclosing]

/-- An opening mark goes one level down, a closing one up again. -/
lemma step_opens (hquote : Quote.of? c = none) (hopening : c ∈ g.opening) :
    Nesting.step g ⟨depth, none⟩ c = ⟨depth + 1, none⟩ := by
  simp [Nesting.step, hquote, isAnyOf_char, hopening]

lemma step_closes (hquote : Quote.of? c = none) (hopening : c ∉ g.opening)
    (hclosing : c ∈ g.closing) : Nesting.step g ⟨depth, none⟩ c = ⟨depth - 1, none⟩ := by
  simp [Nesting.step, hquote, isAnyOf_char, hopening, hclosing]

/-- The group is closed by a closing mark that belongs to no group inside it. -/
lemma closedBy_eq_true_iff : Nesting.closedBy g ⟨depth, none⟩ c = true ↔
    depth = 0 ∧ c ∈ g.closing := by
  simp [Nesting.closedBy, isAnyOf_char]

/-- A symbol that does not close the group is a part of it. -/
lemma readGroup_cons (h : ¬(depth = 0 ∧ c ∈ g.closing)) (rest : List Char) :
    readGroup g ⟨depth, none⟩ (c :: rest) =
      (readGroup g (Nesting.step g ⟨depth, none⟩ c) rest).map fun found =>
        (c :: found.1, found.2) := by
  rw [readGroup, if_neg (fun hclosed => h (closedBy_eq_true_iff.mp hclosed))]

end Pass

/-! ### Reading over what is grouped -/

/-- Texts that close groups which are open, one after the other, and are grouped
apart from that. -/
def Unwinds (g : Grouping) : Nat → List Char → Prop
  | 0, text => Grouped g text
  | depth + 1, text =>
      ∃ inner c rest, Grouped g inner ∧ c ∈ g.closing ∧ Unwinds g depth rest ∧
        text = inner ++ c :: rest

namespace Unwinds

variable {g : Grouping} {depth : Nat} {text : List Char}

/-- A text that is put together of whole groups changes no level. -/
lemma append_left {left : List Char} (hl : Grouped g left) (h : Unwinds g depth text) :
    Unwinds g depth (left ++ text) := by
  cases depth with
  | zero => exact hl.append h
  | succ depth =>
      obtain ⟨inner, c, rest, hinner, hc, hrest, rfl⟩ := h
      exact ⟨left ++ inner, c, rest, hl.append hinner, hc, hrest, by simp⟩

/-- A group opened in front is the first to be closed. -/
lemma cons_opening {o : Char} (ho : o ∈ g.opening) (h : Unwinds g (depth + 1) text) :
    Unwinds g depth (o :: text) := by
  obtain ⟨inner, c, rest, hinner, hc, hrest, rfl⟩ := h
  have hgroup : Grouped g (o :: (inner ++ [c])) := .group ho hc hinner .nil
  simpa using hrest.append_left hgroup

/-- A closing mark leads out of one group. -/
lemma cons_closing {c : Char} (hc : c ∈ g.closing) (h : Unwinds g depth text) :
    Unwinds g (depth + 1) (c :: text) :=
  ⟨[], c, text, .nil, hc, h, rfl⟩

end Unwinds

section Groups

variable {g : Grouping} (hg : g.Proper)

include hg

/-- Reading goes over a grouped text as over a single symbol. -/
lemma readGroup_append_of_grouped {body : List Char} (hbody : Grouped g body) (depth : Nat)
    (rest : List Char) :
    readGroup g ⟨depth, none⟩ (body ++ rest) =
      (readGroup g ⟨depth, none⟩ rest).map fun found => (body ++ found.1, found.2) := by
  induction hbody generalizing depth rest with
  | nil => simp
  | other hquote hopening hclosing _ ih =>
      rw [List.cons_append, readGroup_cons (fun h => hclosing h.2),
        step_other hquote hopening hclosing, ih, Option.map_map]
      rfl
  | quoted q hfree _ ih =>
      rw [List.append_assoc, readGroup_quotation (hg.closing_plain q) hfree, ih, Option.map_map]
      simp [Function.comp_def]
  | @group o c inner after ho hc _ _ ihinner ihafter =>
      have hopen : ¬(depth = 0 ∧ o ∈ g.closing) := fun h => hg.apart o ho h.2
      have hclose : ¬(depth + 1 = 0 ∧ c ∈ g.closing) := fun h => Nat.succ_ne_zero depth h.1
      have hapart : c ∉ g.opening := fun h => hg.apart c h hc
      -- one group deeper to the end of `inner`, and back with `c`
      rw [List.cons_append, List.append_assoc, readGroup_cons hopen,
        step_opens (hg.of?_opening ho) ho, ihinner, List.cons_append, readGroup_cons hclose,
        step_closes (hg.of?_closing hc) hapart hc, Nat.add_sub_cancel, ihafter]
      simp [Option.map_map, Function.comp_def]

/-- What is read closes the groups that are open. -/
lemma unwinds_of_readGroup {text body rest : List Char} {depth : Nat}
    (h : readGroup g ⟨depth, none⟩ text = some (body, rest)) : Unwinds g depth body := by
  induction text using quotation_induction generalizing depth body with
  | nil => simp [readGroup] at h
  | unclosed q text hfree => simp [readGroup_unclosed (hg.closing_plain q) hfree] at h
  | closed q inner text hfree ih =>
      rw [readGroup_quotation (hg.closing_plain q) hfree] at h
      obtain ⟨⟨body', rest'⟩, hread, heq⟩ := Option.map_eq_some_iff.mp h
      obtain ⟨rfl, rfl⟩ := by simpa using heq
      have hquoted : Grouped g (quotation q inner) := by
        simpa using Grouped.quoted (g := g) q hfree .nil
      exact (ih hread).append_left hquoted
  | other c text hquote ih =>
      by_cases hend : depth = 0 ∧ c ∈ g.closing
      · obtain ⟨rfl, hc⟩ := hend
        rw [readGroup, if_pos (closedBy_eq_true_iff.mpr ⟨rfl, hc⟩)] at h
        obtain ⟨rfl, -⟩ := by simpa using h
        exact Grouped.nil
      · rw [readGroup_cons hend] at h
        obtain ⟨⟨body', rest'⟩, hread, heq⟩ := Option.map_eq_some_iff.mp h
        obtain ⟨rfl, rfl⟩ := by simpa using heq
        by_cases hopening : c ∈ g.opening
        · rw [step_opens hquote hopening] at hread
          exact (ih hread).cons_opening hopening
        · by_cases hclosing : c ∈ g.closing
          · obtain ⟨depth, rfl⟩ : ∃ d, depth = d + 1 :=
              Nat.exists_eq_succ_of_ne_zero fun hzero => hend ⟨hzero, hclosing⟩
            rw [step_closes hquote hopening hclosing] at hread
            exact (ih hread).cons_closing hclosing
          · rw [step_other hquote hopening hclosing] at hread
            exact (ih hread).append_left (.other hquote hopening hclosing .nil)

/-- What is read of a group: a grouped text in front of a closing bracket. -/
theorem readGroup_eq_some_iff {text body rest : List Char} :
    readGroup g .top text = some (body, rest) ↔
      ∃ c ∈ g.closing, Grouped g body ∧ text = body ++ c :: rest := by
  constructor
  · intro h
    obtain ⟨c, hc, rfl⟩ := append_of_readGroup h
    exact ⟨c, by simpa [isAnyOf_char] using hc, unwinds_of_readGroup hg h, rfl⟩
  · rintro ⟨c, hc, hbody, rfl⟩
    rw [Nesting.top, readGroup_append_of_grouped hg hbody, readGroup,
      if_pos (closedBy_eq_true_iff.mpr ⟨rfl, hc⟩)]
    simp

end Groups

/-- Reading up to a bracket takes up whole groups and the mark. -/
lemma readBracketed_eq_some_iff {text body rest : List Char} :
    readBracketed text = some (body, rest) ↔
      Grouped .square body ∧ text = body ++ ']' :: rest := by
  rw [readBracketed, readGroup_eq_some_iff Grouping.proper_square]
  simp only [Grouping.closing_square, List.mem_singleton, exists_eq_left]

lemma readParenthesized_eq_some_iff {text body rest : List Char} :
    readParenthesized text = some (body, rest) ↔
      Grouped .round body ∧ text = body ++ ')' :: rest := by
  rw [readParenthesized, readGroup_eq_some_iff Grouping.proper_round]
  simp only [Grouping.closing_round, List.mem_singleton, exists_eq_left]

end Text

end SelectorPath
