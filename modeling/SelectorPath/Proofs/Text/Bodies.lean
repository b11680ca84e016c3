/-
Bodies of groups, by counting brackets.

The body of a group is a text whose quotations end, in which no part from the front
closes more groups than it opens, and which closes as many as it opens. Brackets in
quotations do not count. A reader finds exactly these texts.

* `Text.QuoteClosed`, `Text.outside`: the quotations of a text end, and the symbols
  outside of them.
* `Text.IsArgumentBody`, `Text.IsTestBody`: the bodies in parentheses, which nest, and
  in square brackets, which do not.
* `Text.Fits`: bodies read with groups and a quotation open. The balance of open and
  closed groups is the same before and after a symbol (`Text.balance_cons`), so that
  fitting is a matter of one symbol after the other (`Text.fits_cons`).
* `Text.readGroup_eq_some_iff_fits`: what is read of a group;
  `Text.readParenthesized_eq_some_iff_body`, `Text.readBracketed_eq_some_iff_body` for
  the two kinds of groups.
-/
import SelectorPath.Proofs.Text.Groups
import SelectorPath.Proofs.Text.TopLevel

namespace SelectorPath.Text

variable {α : Type} [Symbol α]

/-! ### Quotations and what is outside of them -/

/-- The quotation that is open after one more symbol. -/
def quoteAfter (q : Option Quote) (a : α) : Option Quote :=
  match q with
  | some p => if Quote.of? a = some p then none else some p
  | none => Quote.of? a

/-- Every quotation in the text ends. -/
def QuoteClosed (text : List α) : Prop := text.foldl quoteAfter none = none

instance (text : List α) : Decidable (QuoteClosed text) :=
  inferInstanceAs (Decidable (text.foldl quoteAfter none = none))

/-- The symbols of a text outside of its quotations, if the quotation `q` is open in
front of it. -/
def outsideFrom (q : Option Quote) : List α → List α
  | [] => []
  | a :: text =>
    if q = none ∧ Quote.of? a = none then a :: outsideFrom none text
    else outsideFrom (quoteAfter q a) text

/-- The symbols of a text outside of its quotations. -/
def outside (text : List α) : List α := outsideFrom none text

/-- The body of an argument: outside of quotations its parentheses have their
partners. -/
structure IsArgumentBody (body : List α) : Prop where
  quotes_end : QuoteClosed body
  never_below : ∀ part, part <+: body →
    (outside part).countP (Symbol.is ')') ≤ (outside part).countP (Symbol.is '(')
  even : (outside body).countP (Symbol.is ')') = (outside body).countP (Symbol.is '(')

/-- The body of an attribute test: there is no `]` outside of quotations. -/
structure IsTestBody (body : List α) : Prop where
  quotes_end : QuoteClosed body
  unclosed : ∀ a ∈ outside body, Symbol.is ']' a = false

/-- Whether a quotation is open does not depend on the groups. -/
lemma quote_step (g : Grouping) (s : Nesting) (a : α) :
    (s.step g a).quote = quoteAfter s.quote a := by
  obtain ⟨depth, quote⟩ := s
  cases quote with
  | none =>
      cases hquote : Quote.of? a with
      | none =>
          simp only [Nesting.step, quoteAfter, hquote]
          split_ifs <;> rfl
      | some p => simp [Nesting.step, quoteAfter, hquote]
  | some q =>
      simp only [Nesting.step, quoteAfter]
      split_ifs <;> rfl

/-- What stands outside quotations, part by part, if the second part begins as the first
one ends. -/
lemma outsideFrom_append (q : Option Quote) (left right : List α) :
    outsideFrom q (left ++ right) =
      outsideFrom q left ++ outsideFrom (left.foldl quoteAfter q) right := by
  induction left generalizing q with
  | nil => rfl
  | cons a left ih =>
      rw [List.cons_append, outsideFrom, outsideFrom, List.foldl_cons]
      split_ifs with hout
      · obtain ⟨rfl, hquote⟩ := hout
        rw [ih, List.cons_append, show quoteAfter none a = none from hquote]
      · exact ih _

/-! ### Bodies read with something open -/

/-- The number of symbols outside of quotations that open a group. -/
def openings (g : Grouping) (q : Option Quote) (text : List α) : Nat :=
  (outsideFrom q text).countP (Symbol.isAnyOf g.opening)

/-- The number of symbols outside of quotations that close a group. -/
def closings (g : Grouping) (q : Option Quote) (text : List α) : Nat :=
  (outsideFrom q text).countP (Symbol.isAnyOf g.closing)

/-- The rest of a body in which `s` is open: no part of it from the front closes more
groups than are open and opened, and at the end all of them are closed. -/
structure Fits (g : Grouping) (s : Nesting) (body : List α) : Prop where
  quotes_end : body.foldl quoteAfter s.quote = none
  never_below : ∀ part, part <+: body →
    closings g s.quote part ≤ s.depth + openings g s.quote part
  even : closings g s.quote body = s.depth + openings g s.quote body

section

variable {g : Grouping} (hg : g.Proper) {s : Nesting} {a : α}

include hg

/-- A symbol that does not close the group itself keeps the balance: what it opens or
closes is counted in the depth from then on. -/
lemma balance_cons (h : s.closedBy g a = false) (part : List α) :
    closings g s.quote (a :: part) + (s.step g a).depth + openings g (s.step g a).quote part =
      closings g (s.step g a).quote part + s.depth + openings g s.quote (a :: part) := by
  obtain ⟨depth, quote⟩ := s
  by_cases hout : quote = none ∧ Quote.of? a = none
  · obtain ⟨rfl, hquote⟩ := hout
    simp only [closings, openings, outsideFrom, hquote, and_self, if_true, List.countP_cons]
    by_cases hopening : Symbol.isAnyOf g.opening a = true
    · have hclosing := not_isAnyOf_of_isAnyOf hg.apart hopening
      simp only [Nesting.step, hquote, hopening, hclosing, if_true, Bool.false_eq_true, if_false]
      omega
    · by_cases hclosing : Symbol.isAnyOf g.closing a = true
      · -- a closing symbol at depth zero would have ended the group
        have hdeep : depth ≠ 0 := by
          rintro rfl
          simp [Nesting.closedBy, hclosing] at h
        simp only [Nesting.step, hquote, hopening, hclosing, if_true, Bool.false_eq_true, if_false]
        omega
      · simp only [Nesting.step, hquote, hopening, hclosing, Bool.false_eq_true, if_false]
        omega
  · -- a mark or a symbol in a quotation counts for nothing
    have hdepth : (Nesting.step g ⟨depth, quote⟩ a).depth = depth := by
      cases quote with
      | none =>
          obtain ⟨p, hp⟩ := Option.ne_none_iff_exists'.mp fun hnone => hout ⟨rfl, hnone⟩
          rw [Nesting.step_of_mark hp]
      | some q =>
          simp only [Nesting.step]
          split_ifs <;> rfl
    rw [hdepth, quote_step]
    simp only [closings, openings, outsideFrom, if_neg hout]

/-- One symbol that does not close the group. -/
lemma fits_cons (h : s.closedBy g a = false) {body : List α} :
    Fits g s (a :: body) ↔ Fits g (s.step g a) body := by
  constructor
  · rintro ⟨hquotes, hbelow, heven⟩
    refine ⟨by rwa [quote_step], fun part hpart => ?_, ?_⟩
    · have hbalance := balance_cons hg h part
      have hle := hbelow (a :: part) (List.cons_prefix_cons.mpr ⟨rfl, hpart⟩)
      omega
    · have hbalance := balance_cons hg h body
      omega
  · rintro ⟨hquotes, hbelow, heven⟩
    refine ⟨by rwa [quote_step] at hquotes, fun part hpart => ?_, ?_⟩
    · cases part with
      | nil => simp [closings, outsideFrom]
      | cons b part =>
          obtain ⟨rfl, hprefix⟩ := List.cons_prefix_cons.mp hpart
          have hbalance := balance_cons hg h part
          have hle := hbelow part hprefix
          omega
    · have hbalance := balance_cons hg h body
      omega

/-- The bracket that closes the group itself is no part of its body. -/
lemma not_fits_of_closedBy (h : s.closedBy g a = true) (body : List α) :
    ¬ Fits g s (a :: body) := by
  intro hfits
  obtain ⟨depth, quote⟩ := s
  simp only [Nesting.closedBy, Bool.and_eq_true, beq_iff_eq, Option.isNone_iff_eq_none] at h
  obtain ⟨⟨rfl, rfl⟩, hclosing⟩ := h
  have hquote := of?_of_isAnyOf hg.closing_plain hclosing
  have hopening := not_isAnyOf_of_isAnyOf (fun c hc hopen => hg.apart c hopen hc) hclosing
  have hle := hfits.never_below [a] (by simp)
  simp [closings, openings, outsideFrom, hquote, hclosing, hopening] at hle

omit hg in
/-- An empty body is one if the pass is back at the top. -/
lemma fits_nil : Fits g s ([] : List α) ↔ s = .top := by
  constructor
  · rintro ⟨hquote, -, heven⟩
    exact Nesting.eq_top (by simpa [closings, openings, outsideFrom, eq_comm] using heven) hquote
  · rintro rfl
    refine ⟨rfl, fun part hpart => ?_, rfl⟩
    rw [List.prefix_nil.mp hpart]
    exact Nat.le_refl _

/-- What is read of a group: a fitting body in front of a closing bracket. -/
theorem readGroup_eq_some_iff_fits {text body rest : List α} :
    readGroup g s text = some (body, rest) ↔
      ∃ a, Symbol.isAnyOf g.closing a = true ∧ Fits g s body ∧ text = body ++ a :: rest := by
  induction text generalizing s body with
  | nil => simp [readGroup]
  | cons c text ih =>
      rw [readGroup]
      by_cases hclosed : s.closedBy g c = true
      · have htop := hclosed
        simp only [Nesting.closedBy, Bool.and_eq_true, beq_iff_eq, Option.isNone_iff_eq_none]
          at htop
        obtain ⟨⟨hdepth, hquote⟩, hclosing⟩ := htop
        rw [if_pos hclosed]
        constructor
        · intro h
          obtain ⟨rfl, rfl⟩ := Prod.mk.inj (Option.some.inj h)
          exact ⟨c, hclosing, fits_nil.mpr (Nesting.eq_top hdepth hquote), rfl⟩
        · rintro ⟨a, -, hfits, heq⟩
          -- a body that goes on over the symbol that closes does not fit
          cases body with
          | nil => rw [(List.cons.inj heq).2]
          | cons b body =>
              obtain ⟨rfl, -⟩ := List.cons.inj heq
              exact absurd hfits (not_fits_of_closedBy hg hclosed body)
      · rw [if_neg hclosed, Option.map_eq_some_iff]
        rw [Bool.not_eq_true] at hclosed
        constructor
        · rintro ⟨⟨body', rest'⟩, hread, heq⟩
          obtain ⟨rfl, rfl⟩ := Prod.mk.inj heq
          obtain ⟨a, ha, hfits, rfl⟩ := ih.mp hread
          exact ⟨a, ha, (fits_cons hg hclosed).mpr hfits, rfl⟩
        · rintro ⟨a, ha, hfits, heq⟩
          cases body with
          | nil =>
              -- an empty body fits at the top only, where the symbol would have closed the group
              obtain ⟨rfl, rfl⟩ := List.cons.inj heq
              rw [fits_nil.mp hfits] at hclosed
              simp [Nesting.closedBy, Nesting.top, ha] at hclosed
          | cons b body =>
              obtain ⟨rfl, rfl⟩ := List.cons.inj heq
              exact ⟨(body, rest), ih.mpr ⟨a, ha, (fits_cons hg hclosed).mp hfits, rfl⟩, rfl⟩

end

/-! ### The two kinds of groups -/

lemma isAnyOf_singleton (c : Char) : Symbol.isAnyOf [c] = Symbol.is (α := α) c := by
  funext a
  simp [Symbol.isAnyOf]

/-- For parentheses the condition is on all prefixes, since they nest. -/
lemma fits_round_iff {body : List α} : Fits .round .top body ↔ IsArgumentBody body := by
  have hopenings : ∀ text : List α, openings .round none text =
      (outside text).countP (Symbol.is '(') := fun text => by
    simp only [openings, outside, Grouping.round, isAnyOf_singleton]
  have hclosings : ∀ text : List α, closings .round none text =
      (outside text).countP (Symbol.is ')') := fun text => by
    simp only [closings, outside, Grouping.round, isAnyOf_singleton]
  constructor
  · rintro ⟨hquotes, hbelow, heven⟩
    simp only [Nesting.top, hopenings, hclosings, Nat.zero_add] at hbelow heven
    exact ⟨hquotes, hbelow, heven⟩
  · rintro ⟨hquotes, hbelow, heven⟩
    refine ⟨hquotes, ?_, ?_⟩
    all_goals simpa only [Nesting.top, hopenings, hclosings, Nat.zero_add]

/-- For brackets it is only that none closes, since they do not nest. -/
lemma fits_square_iff {body : List α} : Fits .square .top body ↔ IsTestBody body := by
  have hopenings : ∀ text : List α, openings .square none text = 0 := fun text => by
    simp [openings, Grouping.square, Symbol.isAnyOf]
  have hclosings : ∀ text : List α, closings .square none text = 0 ↔
      ∀ a ∈ outside text, Symbol.is ']' a = false := fun text => by
    simp [closings, outside, Grouping.square, isAnyOf_singleton]
  constructor
  · rintro ⟨hquotes, -, heven⟩
    simp only [Nesting.top, hopenings, Nat.zero_add] at heven
    exact ⟨hquotes, (hclosings body).mp heven⟩
  · rintro ⟨hquotes, hunclosed⟩
    refine ⟨hquotes, fun part hpart => ?_, ?_⟩
    · obtain ⟨behind, rfl⟩ := hpart
      have hpart : closings .square none part = 0 := by
        refine (hclosings part).mpr fun a ha => hunclosed a ?_
        rw [outside, outsideFrom_append]
        exact List.mem_append_left _ ha
      exact hpart.trans_le (Nat.zero_le _)
    · simp only [Nesting.top, hopenings, Nat.zero_add]
      exact (hclosings body).mpr hunclosed

/-- What is read up to a parenthesis is a body and the mark behind it. -/
theorem readParenthesized_eq_some_iff_body {text body rest : List α} :
    readParenthesized text = some (body, rest) ↔
      ∃ a, Symbol.is ')' a = true ∧ IsArgumentBody body ∧ text = body ++ a :: rest := by
  rw [readParenthesized, readGroup_eq_some_iff_fits Grouping.proper_round, fits_round_iff]
  simp only [Grouping.closing_round, isAnyOf_singleton]

/-- What is read up to a bracket is a body and the mark behind it. -/
theorem readBracketed_eq_some_iff_body {text body rest : List α} :
    readBracketed text = some (body, rest) ↔
      ∃ a, Symbol.is ']' a = true ∧ IsTestBody body ∧ text = body ++ a :: rest := by
  rw [readBracketed, readGroup_eq_some_iff_fits Grouping.proper_square, fits_square_iff]
  simp only [Grouping.closing_square, isAnyOf_singleton]

end SelectorPath.Text
