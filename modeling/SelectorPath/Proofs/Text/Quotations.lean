/-
Quotations at the front of a text.

A pass can be read quotation by quotation: a quotation mark either opens a
quotation that ends further on, which the pass goes over as over a single
symbol, or one that is left open, which the pass never leaves.

* `Text.quotation_induction`: induction on a text along its quotations.
* `Text.readGroup_quotation`, `Text.cut_of_quotation`,
  `Text.lastExposed_quotation`: the passes over a quotation that ends.
* `Text.readGroup_unclosed`, `Text.cut_unclosed`, `Text.lastExposed_unclosed`: the
  passes over a quotation that is left open.
* `Text.lastExposed_append_of_balanced`: the search for a doubled mark goes over a
  balanced text that exposes none.
-/
import SelectorPath.Proofs.Text.Passes

namespace SelectorPath.Text

/-- A quotation with its marks. -/
def quotation (q : Quote) (inner : List Char) : List Char := q.mark :: (inner ++ [q.mark])

lemma quotation_append (q : Quote) (inner rest : List Char) :
    quotation q inner ++ rest = q.mark :: (inner ++ q.mark :: rest) := by
  simp [quotation]

/-- What holds for the empty text and for a quotation left open, and is kept by
quotations and other symbols in front of a text, holds for every text. -/
theorem quotation_induction {motive : List Char → Prop} (nil : motive [])
    (unclosed : ∀ (q : Quote) (text : List Char), q.mark ∉ text → motive (q.mark :: text))
    (closed : ∀ (q : Quote) (inner rest : List Char), q.mark ∉ inner → motive rest →
      motive (quotation q inner ++ rest))
    (other : ∀ (c : Char) (rest : List Char), Quote.of? c = none → motive rest →
      motive (c :: rest))
    (text : List Char) : motive text := by
  induction hn : text.length using Nat.strongRecOn generalizing text with
  | _ n ih =>
    cases text with
    | nil => exact nil
    | cons c rest =>
        cases hc : Quote.of? c with
        | none => exact other c rest hc (ih rest.length (by simp [← hn]) rest rfl)
        | some q =>
            obtain rfl := Quote.of?_eq_some.mp hc
            by_cases hmem : q.mark ∈ rest
            · obtain ⟨inner, after, rfl, hinner⟩ := List.eq_append_cons_of_mem hmem
              rw [← quotation_append]
              refine closed q inner after hinner (ih after.length ?_ after rfl)
              simp only [← hn, List.length_cons, List.length_append]
              omega
            · exact unclosed q rest hmem

section

variable {depth : Nat} {q : Quote} {inner : List Char}

/-- Inside a quotation only its own mark counts. -/
lemma step_quotation {g : Grouping} {c : Char} (h : q.mark ≠ c) :
    Nesting.step g ⟨depth, some q⟩ c = ⟨depth, some q⟩ := by
  simp [Nesting.step, Quote.of?_eq_some, Ne.symm h]

lemma step_closing (g : Grouping) :
    Nesting.step g ⟨depth, some q⟩ q.mark = ⟨depth, none⟩ := by
  simp [Nesting.step, Quote.of?_eq_some]

lemma step_opening (g : Grouping) :
    Nesting.step g ⟨depth, none⟩ q.mark = ⟨depth, some q⟩ := by
  have hmark : Quote.of? q.mark = some q := Quote.of?_eq_some.mpr rfl
  simp [Nesting.step, hmark]

/-! ### The end of a group -/

/-- No quotation mark closes a group. -/
lemma closedBy_mark {g : Grouping} (hg : q.mark ∉ g.closing) (s : Nesting) :
    ¬ s.closedBy g q.mark = true := by
  simp [Nesting.closedBy, isAnyOf_char, hg]

/-- A quotation left open hides the end of the group. -/
lemma readGroup_unclosed {g : Grouping} (hg : q.mark ∉ g.closing) (h : q.mark ∉ inner) :
    readGroup g ⟨depth, none⟩ (q.mark :: inner) = none := by
  have hopen : ∀ text : List Char, q.mark ∉ text →
      readGroup g ⟨depth, some q⟩ text = none := by
    intro text htext
    induction text with
    | nil => rfl
    | cons c text ih =>
        obtain ⟨hc, htext⟩ := by simpa only [List.mem_cons, not_or] using htext
        rw [readGroup, if_neg (by simp [Nesting.closedBy]), step_quotation hc, ih htext]
        rfl
  rw [readGroup, if_neg (closedBy_mark hg _), step_opening, hopen inner h]
  rfl

/-- A quotation belongs to the group as a whole. -/
lemma readGroup_quotation {g : Grouping} (hg : q.mark ∉ g.closing) (h : q.mark ∉ inner)
    (rest : List Char) :
    readGroup g ⟨depth, none⟩ (quotation q inner ++ rest) =
      (readGroup g ⟨depth, none⟩ rest).map fun r => (quotation q inner ++ r.1, r.2) := by
  have hopen : ∀ text : List Char, q.mark ∉ text →
      readGroup g ⟨depth, some q⟩ (text ++ q.mark :: rest) =
        (readGroup g ⟨depth, none⟩ rest).map fun r => (text ++ q.mark :: r.1, r.2) := by
    intro text htext
    induction text with
    | nil =>
        rw [List.nil_append, readGroup, if_neg (by simp [Nesting.closedBy]), step_closing]
        rfl
    | cons c text ih =>
        obtain ⟨hc, htext⟩ := by simpa only [List.mem_cons, not_or] using htext
        rw [List.cons_append, readGroup, if_neg (by simp [Nesting.closedBy]), step_quotation hc,
          ih htext, Option.map_map]
        rfl
  rw [quotation_append, readGroup, if_neg (closedBy_mark hg _), step_opening, hopen inner h,
    Option.map_map]
  simp only [quotation_append]
  rfl

/-! ### The pieces between delimiters -/

variable {delimiter : Char}

/-- A text with a quotation left open is in no pieces. -/
lemma cut_unclosed (h : q.mark ∉ inner) :
    cut delimiter ⟨depth, none⟩ (q.mark :: inner) = none := by
  have hopen : ∀ text : List Char, q.mark ∉ text →
      cut delimiter ⟨depth, some q⟩ text = none := by
    intro text htext
    induction text with
    | nil => rfl
    | cons c text ih =>
        obtain ⟨hc, htext⟩ := by simpa only [List.mem_cons, not_or] using htext
        rw [cut_cons_of_kept (by simp [Nesting.exposes]), step_quotation hc, ih htext]
        rfl
  rw [cut_mark (by cases q <;> decide) (step_opening .any), hopen inner h]
  rfl

/-- A quotation belongs to its piece as a whole. -/
lemma cut_of_quotation (h : q.mark ∉ inner) (rest : List Char) :
    cut delimiter ⟨depth, none⟩ (quotation q inner ++ rest) =
      (cut delimiter ⟨depth, none⟩ rest).map (prepend (quotation q inner)) := by
  rw [quotation_append, cut_mark (by cases q <;> decide) (step_opening .any), cut_quotation h,
    Option.map_map, prepend_comp]
  rfl

/-! ### The last exposed place -/

variable {pattern : List Char}

/-- Nothing is exposed behind a mark that opens a quotation left open. -/
lemma lastExposed_unclosed (h : q.mark ∉ inner) :
    lastExposed pattern ⟨depth, none⟩ (q.mark :: inner) = none := by
  have hopen : ∀ text : List Char, q.mark ∉ text →
      lastExposed pattern ⟨depth, some q⟩ text = none := by
    intro text htext
    induction text with
    | nil => rfl
    | cons c text ih =>
        obtain ⟨hc, htext⟩ := by simpa only [List.mem_cons, not_or] using htext
        rw [lastExposed_cons, step_quotation hc, ih htext]
        simp [Nesting.exposes]
  rw [lastExposed_cons, step_opening, hopen inner h]
  simp [exposes_of_not_isPlain (show ¬ IsPlain q.mark by cases q <;> decide)]

/-- Nothing is exposed in a quotation. -/
lemma lastExposed_quotation (h : q.mark ∉ inner) (rest : List Char) :
    lastExposed pattern ⟨depth, none⟩ (quotation q inner ++ rest) =
      (lastExposed pattern ⟨depth, none⟩ rest).map ((quotation q inner).length + ·) := by
  have hmark : ∀ s : Nesting, s.exposes .any q.mark = false :=
    exposes_of_not_isPlain (by cases q <;> decide)
  -- the rest of a quotation exposes nothing, up to the mark that ends it
  have hopen : ∀ text : List Char, q.mark ∉ text →
      lastExposed pattern ⟨depth, some q⟩ (text ++ q.mark :: rest) =
        (lastExposed pattern ⟨depth, none⟩ rest).map (text.length + 1 + ·) := by
    intro text htext
    induction text with
    | nil =>
        rw [List.nil_append, lastExposed_cons, step_closing, hmark]
        cases lastExposed pattern ⟨depth, none⟩ rest with
        | none => rfl
        | some i => simp [Nat.add_comm]
    | cons c text ih =>
        obtain ⟨hc, htext⟩ := by simpa only [List.mem_cons, not_or] using htext
        rw [List.cons_append, lastExposed_cons, step_quotation hc, ih htext]
        cases lastExposed pattern ⟨depth, none⟩ rest with
        | none => simp [Nesting.exposes]
        | some i =>
            simp only [Option.map_some, Option.some.injEq, List.length_cons]
            omega
  have hlength : (quotation q inner).length = inner.length + 2 := by simp [quotation]
  rw [quotation_append, lastExposed_cons, step_opening, hopen inner h, hmark, hlength]
  cases lastExposed pattern ⟨depth, none⟩ rest with
  | none => rfl
  | some i =>
      simp only [Option.map_some, Option.some.injEq]
      omega

/-- No doubled mark is exposed in a balanced text, inside a group or if the text
exposes no mark at all. -/
theorem lastExposed_append_of_balanced {outside : Char → Prop} {text : List Char} {mark : Char}
    (h : Balanced outside text) (hout : 0 < depth ∨ ¬ outside mark) {rest : List Char}
    (hrest : lastExposed [mark, mark] ⟨depth, none⟩ rest = none) :
    lastExposed [mark, mark] ⟨depth, none⟩ (text ++ rest) = none := by
  have hbracket : ∀ {c : Char} {s : Nesting} {after : List Char}, ¬ IsPlain c →
      lastExposed [mark, mark] (s.step .any c) after = none →
      lastExposed [mark, mark] s (c :: after) = none := by
    intro c s after hc hafter
    rw [lastExposed_cons, hafter, exposes_of_not_isPlain hc]
    rfl
  induction h generalizing depth rest with
  | nil => exact hrest
  | @plain outside c hplain hc =>
      rw [List.singleton_append, lastExposed_cons, Nesting.step_eq_self hplain, hrest]
      refine if_neg fun hhere => ?_
      rw [Bool.and_eq_true, isPrefixOf_double] at hhere
      rcases hout with hdeep | hfree
      · simp [Nesting.exposes, Nat.ne_of_gt hdeep] at hhere
      · exact hfree (hhere.2.1 ▸ hc)
  | @quoted outside q inner hfree =>
      show lastExposed [mark, mark] ⟨depth, none⟩ (quotation q inner ++ rest) = none
      rw [lastExposed_quotation hfree, hrest, Option.map_none]
  | group b _ ih =>
      -- one level down nothing is exposed, whatever the group holds
      rw [List.cons_append, List.append_assoc, List.singleton_append]
      refine hbracket (by cases b <;> decide) ?_
      rw [show Nesting.step .any ⟨depth, none⟩ b.opening = ⟨depth + 1, none⟩ by cases b <;> rfl]
      refine ih (.inl depth.succ_pos) (hbracket (by cases b <;> decide) ?_)
      rw [show Nesting.step .any ⟨depth + 1, none⟩ b.closing = ⟨depth, none⟩ by cases b <;> rfl]
      exact hrest
  | append _ _ ihl ihr =>
      rw [List.append_assoc]
      exact ihl hout (ihr hout hrest)

/-- A mark that a balanced text has only in quotations or groups is not found twice in a
row at the top. -/
lemma lastTopLevel_of_balanced {text : List Char} {mark : Char} (h : Balanced (· ≠ mark) text) :
    lastTopLevel [mark, mark] text = none := by
  have hnone : lastExposed [mark, mark] ⟨0, none⟩ (text ++ []) = none :=
    lastExposed_append_of_balanced h (.inr fun hself => hself rfl) rfl
  rwa [List.append_nil] at hnone

end

end SelectorPath.Text
