/-
Balanced texts: every bracket has its partner and every quotation its end.

* `Text.Balanced`: the grammar of such texts, with a condition on the symbols
  that stand outside all groups and quotations. Round and square brackets are
  told apart, although the pass of `Nesting` counts them alike.
* `Text.cut_append_of_balanced`: the pass that looks for delimiters goes over
  a balanced text as over a single symbol, if no delimiter is exposed in it.
* `Text.splitTopLevel_intercalate`: balanced pieces, joined by a delimiter that
  none of them exposes, come apart as they were.
-/
import Mathlib.Data.List.Basic
import Mathlib.Tactic.Lemma
import Mathlib.Tactic.SplitIfs
import SelectorPath.Text.Nesting

namespace SelectorPath

/-- The character of a kind of quotation mark. -/
def Quote.mark : Quote → Char
  | .single => '\''
  | .double => '"'

@[simp] lemma Quote.mark_single : Quote.single.mark = '\'' := rfl

@[simp] lemma Quote.mark_double : Quote.double.mark = '"' := rfl

/-- A symbol opens a quotation if it is one of the two marks. -/
lemma Quote.of?_eq_some {c : Char} {q : Quote} : Quote.of? c = some q ↔ c = q.mark := by
  rw [Quote.of?]
  cases q <;> split_ifs <;> simp_all [Quote.mark]

/-- The two kinds of brackets. -/
inductive Bracket where
  | round
  | square
  deriving DecidableEq

/-- The character that opens a group. -/
def Bracket.opening : Bracket → Char
  | .round => '('
  | .square => '['

@[simp] lemma Bracket.opening_round : Bracket.round.opening = '(' := rfl

@[simp] lemma Bracket.opening_square : Bracket.square.opening = '[' := rfl

/-- The character that closes a group. -/
def Bracket.closing : Bracket → Char
  | .round => ')'
  | .square => ']'

@[simp] lemma Bracket.closing_round : Bracket.round.closing = ')' := rfl

@[simp] lemma Bracket.closing_square : Bracket.square.closing = ']' := rfl

namespace Text

/-- A symbol that is neither a bracket nor a quotation mark. -/
def IsPlain (c : Char) : Prop := c ∉ ['(', ')', '[', ']', '"', '\'']

instance : DecidablePred IsPlain := fun c => inferInstanceAs (Decidable (c ∉ _))

/-- Texts whose brackets and quotations close, with symbols of one kind outside
of them. -/
inductive Balanced : (Char → Prop) → List Char → Prop
  | nil {outside : Char → Prop} : Balanced outside []
  | plain {outside : Char → Prop} {c : Char} :
      IsPlain c → outside c → Balanced outside [c]
  | quoted {outside : Char → Prop} (q : Quote) {text : List Char} :
      q.mark ∉ text → Balanced outside (q.mark :: (text ++ [q.mark]))
  | group {outside : Char → Prop} (b : Bracket) {text : List Char} :
      Balanced (fun _ => True) text → Balanced outside (b.opening :: (text ++ [b.closing]))
  | append {outside : Char → Prop} {left right : List Char} :
      Balanced outside left → Balanced outside right → Balanced outside (left ++ right)

/-! ### Building balanced texts -/

namespace Balanced

variable {outside : Char → Prop} {text : List Char}

/-- A weaker condition on the symbols outside. -/
lemma mono {weaker : Char → Prop} (h : Balanced outside text)
    (hle : ∀ c, outside c → weaker c) : Balanced weaker text := by
  induction h with
  | nil => exact nil
  | plain hplain hout => exact plain hplain (hle _ hout)
  | quoted q hfree => exact quoted q hfree
  | group b hinner _ => exact group b hinner
  | append _ _ ihl ihr => exact append (ihl hle) (ihr hle)

/-- A text without brackets and quotation marks. -/
lemma of_plain (h : ∀ c ∈ text, IsPlain c ∧ outside c) : Balanced outside text := by
  induction text with
  | nil => exact nil
  | cons c rest ih =>
      obtain ⟨hplain, hout⟩ := h c List.mem_cons_self
      have hrest := ih fun d hd => h d (List.mem_cons_of_mem c hd)
      have happ : Balanced outside ([c] ++ rest) := append (plain hplain hout) hrest
      exact happ

/-- A function name with its arguments in parentheses. -/
lemma call {name : List Char} (hname : ∀ c ∈ name, IsPlain c ∧ outside c)
    (h : Balanced (fun _ => True) text) : Balanced outside (name ++ '(' :: (text ++ [')'])) :=
  append (of_plain hname) (group .round h)

/-- Balanced pieces with a balanced text between them. -/
lemma intercalate {separator : List Char} (hsep : Balanced outside separator)
    {parts : List (List Char)} (h : ∀ p ∈ parts, Balanced outside p) :
    Balanced outside (separator.intercalate parts) := by
  induction parts with
  | nil => exact nil
  | cons p ps ih =>
      have hp := h p List.mem_cons_self
      have hps := ih fun q hq => h q (List.mem_cons_of_mem p hq)
      cases ps with
      | nil => rwa [List.intercalate_singleton]
      | cons q qs =>
          rw [List.intercalate_cons_cons]
          exact append (append hp hsep) hps

end Balanced

/-! ### The pass over a balanced text -/

/-- What is found in a text when a part without cuts comes before it. -/
def prepend (part : List Char) (found : List Char × List (List Char)) :
    List Char × List (List Char) :=
  (part ++ found.1, found.2)

@[simp] lemma prepend_nil : prepend [] = id := rfl

/-- Two parts in front of the first piece are one part. -/
lemma prepend_comp (left right : List Char) :
    prepend left ∘ prepend right = prepend (left ++ right) := by
  funext found
  simp [prepend]

lemma isAnyOf_char {marks : List Char} {c : Char} :
    Symbol.isAnyOf marks c = true ↔ c ∈ marks := by
  simp [Symbol.isAnyOf]

lemma of?_of_isPlain {c : Char} (h : IsPlain c) : Quote.of? c = none := by
  simp only [IsPlain, List.mem_cons, not_or] at h
  simp [Quote.of?, h]

/-- A plain symbol neither opens nor closes a group. -/
lemma isAnyOf_of_isPlain {c : Char} (h : IsPlain c) :
    Symbol.isAnyOf Grouping.any.opening c = false ∧
      Symbol.isAnyOf Grouping.any.closing c = false := by
  simp only [IsPlain, List.mem_cons, not_or] at h
  simp [← Bool.not_eq_true, isAnyOf_char, Grouping.any, h]

/-- A plain symbol opens nothing and closes nothing. -/
lemma step_of_isPlain {c : Char} (h : IsPlain c) (depth : Nat) :
    Nesting.step .any ⟨depth, none⟩ c = ⟨depth, none⟩ := by
  simp [Nesting.step, of?_of_isPlain h, isAnyOf_of_isPlain h]

/-- An exposed delimiter ends the piece before it. -/
lemma cut_delimiter {delimiter : Char} (h : IsPlain delimiter) (rest : List Char) :
    cut delimiter .top (delimiter :: rest) =
      (cut delimiter .top rest).map fun found => ([], found.1 :: found.2) := by
  have hexposed : Nesting.exposes .any .top delimiter = true := by
    simp [Nesting.exposes, Nesting.top, of?_of_isPlain h, isAnyOf_of_isPlain h]
  rw [cut, show Nesting.step .any .top delimiter = .top from step_of_isPlain h 0]
  simp [hexposed]

section Pass

variable {delimiter : Char} {depth : Nat}

/-- A symbol that ends no piece is kept. -/
lemma cut_cons_of_kept {c : Char} {s : Nesting}
    (h : (s.exposes .any c && Symbol.is delimiter c) = false) (rest : List Char) :
    cut delimiter s (c :: rest) = (cut delimiter (s.step .any c) rest).map (prepend [c]) := by
  rw [cut]
  simp only [h]
  rfl

/-- A plain symbol is kept inside a group, and outside if it is no delimiter. -/
lemma cut_plain {c : Char} (h : IsPlain c) (hout : 0 < depth ∨ c ≠ delimiter)
    (rest : List Char) :
    cut delimiter ⟨depth, none⟩ (c :: rest) =
      (cut delimiter ⟨depth, none⟩ rest).map (prepend [c]) := by
  rw [cut_cons_of_kept, step_of_isPlain h]
  rcases hout with hdeep | hne
  · simp [Nesting.exposes, Nat.ne_of_gt hdeep]
  · have : Symbol.is delimiter c = false := by
      simpa [← Bool.not_eq_true] using hne
    rw [this, Bool.and_false]

/-- Brackets and quotation marks are never delimiters. -/
lemma exposes_of_not_isPlain {c : Char} (h : ¬ IsPlain c) (s : Nesting) :
    s.exposes .any c = false := by
  simp only [IsPlain, not_not, List.mem_cons, List.not_mem_nil, or_false] at h
  rcases h with rfl | rfl | rfl | rfl | rfl | rfl <;>
    simp [Nesting.exposes, Quote.of?, Symbol.isAnyOf, Grouping.any]

/-- A bracket or quotation mark is kept, and what follows is read with what it
opens or closes. -/
lemma cut_mark {c : Char} {s t : Nesting} (h : ¬ IsPlain c) (hstep : s.step .any c = t)
    (rest : List Char) :
    cut delimiter s (c :: rest) = (cut delimiter t rest).map (prepend [c]) := by
  rw [cut_cons_of_kept, hstep]
  rw [exposes_of_not_isPlain h, Bool.false_and]

/-- A quotation is kept up to its end. -/
lemma cut_quotation {q : Quote} {text : List Char} (hfree : q.mark ∉ text) (rest : List Char) :
    cut delimiter ⟨depth, some q⟩ (text ++ q.mark :: rest) =
      (cut delimiter ⟨depth, none⟩ rest).map (prepend (text ++ [q.mark])) := by
  induction text with
  | nil =>
      refine cut_mark (by cases q <;> decide) ?_ rest
      simp [Nesting.step, Quote.of?_eq_some]
  | cons c text ih =>
      obtain ⟨hc, htext⟩ := by simpa only [List.mem_cons, not_or] using hfree
      have hstep : Nesting.step .any ⟨depth, some q⟩ c = ⟨depth, some q⟩ := by
        simp [Nesting.step, Quote.of?_eq_some, Ne.symm hc]
      rw [List.cons_append, cut_cons_of_kept (by simp [Nesting.exposes]), hstep, ih htext,
        Option.map_map, prepend_comp]
      rfl

/-- A balanced text is kept as a whole, inside a group as it is, and outside of
all groups if it exposes no delimiter. -/
theorem cut_append_of_balanced {outside : Char → Prop} {text : List Char}
    (h : Balanced outside text) (hout : 0 < depth ∨ ¬ outside delimiter) (rest : List Char) :
    cut delimiter ⟨depth, none⟩ (text ++ rest) =
      (cut delimiter ⟨depth, none⟩ rest).map (prepend text) := by
  induction h generalizing depth rest with
  | nil => simp
  | plain hplain hc =>
      refine cut_plain hplain (hout.imp_right ?_) rest
      rintro hfree rfl
      exact hfree hc
  | quoted q hfree =>
      rw [List.cons_append, List.append_assoc, List.singleton_append,
        cut_mark (t := ⟨depth, some q⟩) (by cases q <;> decide) (by cases q <;> rfl),
        cut_quotation hfree, Option.map_map, prepend_comp]
      rfl
  | group b _ ih =>
      -- one level down no delimiter counts, whatever the group exposes
      rw [List.cons_append, List.append_assoc, List.singleton_append,
        cut_mark (t := ⟨depth + 1, none⟩) (by cases b <;> decide) (by cases b <;> rfl),
        ih (.inl depth.succ_pos),
        cut_mark (t := ⟨depth, none⟩) (by cases b <;> decide) (by cases b <;> rfl),
        Option.map_map, Option.map_map, prepend_comp, prepend_comp]
      simp
  | append _ _ ihl ihr =>
      rw [List.append_assoc, ihl hout, ihr hout, Option.map_map, prepend_comp]

end Pass

/-! ### Joining and splitting -/

/-- Balanced pieces that expose no delimiter, joined by it, come apart as they
were. -/
theorem splitTopLevel_intercalate {delimiter : Char} (hplain : IsPlain delimiter)
    {parts : List (List Char)} (hne : parts ≠ [])
    (h : ∀ p ∈ parts, Balanced (· ≠ delimiter) p) :
    splitTopLevel delimiter ([delimiter].intercalate parts) = some parts := by
  induction parts with
  | nil => exact absurd rfl hne
  | cons p ps ih =>
      have hp : ∀ rest, cut delimiter .top (p ++ rest) =
          (cut delimiter .top rest).map (prepend p) :=
        cut_append_of_balanced (h p List.mem_cons_self) (.inr fun hself => hself rfl)
      cases ps with
      | nil =>
          have := hp []
          rw [List.append_nil] at this
          rw [List.intercalate_singleton, splitTopLevel, cutTopLevel, this]
          simp [cut, Nesting.top, prepend]
      | cons q qs =>
          have hrest := ih (List.cons_ne_nil q qs) fun r hr => h r (List.mem_cons_of_mem p hr)
          rw [splitTopLevel, cutTopLevel] at hrest ⊢
          obtain ⟨found, hfound, heq⟩ := Option.map_eq_some_iff.mp hrest
          rw [List.intercalate_cons_cons, List.append_assoc, List.singleton_append, hp,
            cut_delimiter hplain, hfound]
          simp [prepend, heq]

end Text

end SelectorPath
