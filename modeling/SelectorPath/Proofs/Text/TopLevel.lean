/-
Positions outside of all groups and quotations.

A pass over a text from left to right opens a group at `(` and `[`, closes one at
`)` and `]`, and goes from a quotation mark to behind the next mark of its kind.
The positions that it comes to with no group open are those where a text can be
split and where a pattern can be found.

* `Text.Reaches`: the positions that the pass comes to, with the number of groups
  that are open there; `Text.IsTopLevel`: those with no group open;
  `Text.MeetsOpenQuote`: the pass comes to a quotation that is left open.
* `Text.reaches_iff`: the pass of `Nesting`, which looks at one symbol after the
  other, is outside of quotations at exactly these positions.
* `Text.isTopLevel_append_iff`: a pass over two texts begins anew with the second one,
  if the first leaves nothing open.
* `Text.exists_cuts`: the pieces of a text are what stands between its exposed
  delimiters (`Text.piecesBetween`).
* `Text.lastTopLevel_eq_some_iff`, `Text.lastTopLevel_eq_none_iff`: the last place of
  a pattern is the last top-level position where it begins.
-/
import Mathlib.Order.Bounds.Basic
import SelectorPath.Proofs.Text.Quotations

namespace SelectorPath

variable {α : Type} [Symbol α]

/-! ### The pass, symbol by symbol -/

/-- The symbol is a bracket or a quotation mark. -/
def Symbol.isMark (a : α) : Bool := isAnyOf ['(', ')', '[', ']', '"', '\''] a

namespace Nesting

/-- What is open after a text of any symbols. -/
def past (g : Grouping) (s : Nesting) (text : List α) : Nesting := text.foldl (step g) s

@[simp] lemma past_nil (g : Grouping) (s : Nesting) : s.past g ([] : List α) = s := rfl

@[simp] lemma past_cons (g : Grouping) (s : Nesting) (a : α) (text : List α) :
    s.past g (a :: text) = (s.step g a).past g text := rfl

lemma past_append (g : Grouping) (s : Nesting) (left right : List α) :
    s.past g (left ++ right) = (s.past g left).past g right :=
  List.foldl_append

/-- A pass over one symbol more is one step more. -/
lemma past_take_succ {g : Grouping} {s : Nesting} {text : List α} {i : Nat} {a : α}
    (h : text[i]? = some a) :
    s.past g (text.take (i + 1)) = (s.past g (text.take i)).step g a := by
  rw [List.take_add_one, h, past_append]
  rfl

variable {g : Grouping} {depth : Nat} {q : Quote} {a : α}

lemma step_of_mark (h : Quote.of? a = some q) : step g ⟨depth, none⟩ a = ⟨depth, some q⟩ := by
  simp [step, h]

/-- A quotation is closed by the mark that opened it. -/
lemma step_of_equal_mark (h : Quote.of? a = some q) :
    step g ⟨depth, some q⟩ a = ⟨depth, none⟩ := by
  simp [step, h]

lemma step_of_quoted (h : Quote.of? a ≠ some q) :
    step g ⟨depth, some q⟩ a = ⟨depth, some q⟩ := by
  simp [step, h]

end Nesting

namespace Text

/-- Brackets and quotation marks have different codes. -/
lemma of?_of_isAnyOf {marks : List Char} (hmarks : ∀ q : Quote, q.mark ∉ marks) {a : α}
    (h : Symbol.isAnyOf marks a = true) : Quote.of? a = none := by
  obtain ⟨c, hc, hcode⟩ := List.any_eq_true.mp h
  have hne : ∀ q : Quote, Symbol.is q.mark a = false := by
    intro q
    rw [← Bool.not_eq_true]
    intro hq
    have heq : q.mark = c :=
      Char.toNat_inj.mp ((beq_iff_eq.mp hq).symm.trans (beq_iff_eq.mp hcode))
    exact hmarks q (heq ▸ hc)
  have hdouble : Symbol.is '"' a = false := hne .double
  have hsingle : Symbol.is '\'' a = false := hne .single
  simp [Quote.of?, hdouble, hsingle]

/-- No symbol both opens and closes. -/
lemma not_isAnyOf_of_isAnyOf {marks others : List Char} (hapart : ∀ c ∈ marks, c ∉ others) {a : α}
    (h : Symbol.isAnyOf marks a = true) : Symbol.isAnyOf others a = false := by
  obtain ⟨c, hc, hcode⟩ := List.any_eq_true.mp h
  rw [← Bool.not_eq_true]
  intro hother
  obtain ⟨d, hd, hcode'⟩ := List.any_eq_true.mp hother
  have heq : c = d := Char.toNat_inj.mp ((beq_iff_eq.mp hcode).symm.trans (beq_iff_eq.mp hcode'))
  exact hapart c hc (heq ▸ hd)

/-- Symbols are plain if they are neither brackets nor quotation marks. -/
lemma isMark_eq_false_iff {a : α} :
    Symbol.isMark a = false ↔
      Quote.of? a = none ∧ Symbol.isAnyOf Grouping.any.opening a = false ∧
        Symbol.isAnyOf Grouping.any.closing a = false := by
  simp only [Symbol.isMark, Symbol.isAnyOf, Grouping.any, Quote.of?, List.any_cons, List.any_nil,
    Bool.or_false, Bool.or_eq_false_iff]
  cases Symbol.is '"' a <;> cases Symbol.is '\'' a <;> simp
  tauto

/-- A symbol is a quotation mark, opens a group, closes one, or does nothing. -/
lemma symbol_cases (a : α) :
    (∃ q, Quote.of? a = some q) ∨ Symbol.isAnyOf ['(', '['] a = true ∨
      Symbol.isAnyOf [')', ']'] a = true ∨ Symbol.isMark a = false := by
  rw [isMark_eq_false_iff, ← Bool.not_eq_true, ← Bool.not_eq_true, ← Option.not_isSome_iff_eq_none,
    Option.isSome_iff_exists]
  show _ ∨ Symbol.isAnyOf Grouping.any.opening a = true ∨
    Symbol.isAnyOf Grouping.any.closing a = true ∨ _
  tauto

section Steps

variable {depth : Nat} {a : α}

lemma step_of_opening (h : Symbol.isAnyOf ['(', '['] a = true) :
    Nesting.step .any ⟨depth, none⟩ a = ⟨depth + 1, none⟩ := by
  have hquote := of?_of_isAnyOf (by rintro (_ | _) <;> decide) h
  simp [Nesting.step, hquote, Grouping.any, h]

/-- Closing marks without opening ones stay at the top. -/
lemma step_of_closing (h : Symbol.isAnyOf [')', ']'] a = true) :
    Nesting.step .any ⟨depth, none⟩ a = ⟨depth - 1, none⟩ := by
  have hquote := of?_of_isAnyOf (by rintro (_ | _) <;> decide) h
  have hopening : Symbol.isAnyOf ['(', '['] a = false :=
    not_isAnyOf_of_isAnyOf (by simp) h
  simp [Nesting.step, hquote, Grouping.any, h, hopening]

lemma step_of_plain (h : Symbol.isMark a = false) :
    Nesting.step .any ⟨depth, none⟩ a = ⟨depth, none⟩ := by
  simp [Nesting.step, isMark_eq_false_iff.mp h]

end Steps

/-! ### The pass, quotation by quotation -/

/-- The kind of quotation mark at a position, if there is one. -/
def quoteAt (text : List α) (i : Nat) : Option Quote := text[i]?.bind Quote.of?

/-- A quotation from its opening mark to the next mark of the same kind. -/
structure IsQuotation (text : List α) (q : Quote) (i j : Nat) : Prop where
  opened : quoteAt text i = some q
  lt : i < j
  closed : quoteAt text j = some q
  unbroken : ∀ k, i < k → k < j → quoteAt text k ≠ some q

/-- The positions that the pass comes to, with the number of groups open there. -/
inductive Reaches (text : List α) : Nat → Nat → Prop
  | start : Reaches text 0 0
  | opening {i depth : Nat} {a : α} : Reaches text i depth → text[i]? = some a →
      Symbol.isAnyOf ['(', '['] a = true → Reaches text (i + 1) (depth + 1)
  | closing {i depth : Nat} {a : α} : Reaches text i depth → text[i]? = some a →
      Symbol.isAnyOf [')', ']'] a = true → Reaches text (i + 1) (depth - 1)
  | quotation {i j depth : Nat} {q : Quote} : Reaches text i depth → IsQuotation text q i j →
      Reaches text (j + 1) depth
  | other {i depth : Nat} {a : α} : Reaches text i depth → text[i]? = some a →
      Symbol.isMark a = false → Reaches text (i + 1) depth

/-- The position of a symbol that the pass comes to with no group open. -/
def IsTopLevel (text : List α) (i : Nat) : Prop := i < text.length ∧ Reaches text i 0

/-- The pass comes to a mark without another one of its kind behind it. -/
def MeetsOpenQuote (text : List α) : Prop :=
  ∃ i depth q, Reaches text i depth ∧ quoteAt text i = some q ∧
    ∀ j, i < j → quoteAt text j ≠ some q

/-! ### Both passes come to the same positions -/

/-- What is open in front of a position. -/
def stateAt (text : List α) (i : Nat) : Nesting := Nesting.top.past .any (text.take i)

section States

variable {text : List α} {i k depth : Nat} {q : Quote} {a : α}

@[simp] lemma stateAt_zero (text : List α) : stateAt text 0 = .top := rfl

lemma stateAt_length (text : List α) :
    stateAt text text.length = Nesting.top.past .any text := by
  rw [stateAt, List.take_length]

lemma stateAt_succ (h : text[i]? = some a) :
    stateAt text (i + 1) = (stateAt text i).step .any a :=
  Nesting.past_take_succ h

lemma quoteAt_eq (h : text[i]? = some a) : quoteAt text i = Quote.of? a := by
  rw [quoteAt, h, Option.bind_some]

lemma exists_of_quoteAt (h : quoteAt text i = some q) :
    ∃ a, text[i]? = some a ∧ Quote.of? a = some q :=
  Option.bind_eq_some_iff.mp h

omit [Symbol α] in
lemma exists_of_lt (h : i < text.length) : ∃ a, text[i]? = some a :=
  ⟨text[i], List.getElem?_eq_getElem h⟩

/-- Behind its opening mark a quotation stays open up to the next mark of its
kind. -/
lemma stateAt_of_open (hstate : stateAt text i = ⟨depth, none⟩) (hopened : quoteAt text i = some q)
    (hunbroken : ∀ j, i < j → j < k → quoteAt text j ≠ some q) (hlt : i < k)
    (hk : k ≤ text.length) : stateAt text k = ⟨depth, some q⟩ := by
  induction k, hlt using Nat.le_induction with
  | base =>
      obtain ⟨a, ha, hquote⟩ := exists_of_quoteAt hopened
      rw [stateAt_succ ha, hstate, Nesting.step_of_mark hquote]
  | succ k hik ih =>
      obtain ⟨a, ha⟩ := exists_of_lt (show k < text.length by omega)
      have hne := hunbroken k hik (Nat.lt_succ_self k)
      rw [quoteAt_eq ha] at hne
      rw [stateAt_succ ha, ih (fun j hij hjk => hunbroken j hij (by omega)) (by omega),
        Nesting.step_of_quoted hne]

/-- A quotation that is open has been opened at some position, and no mark of its
kind came since. -/
lemma exists_of_stateAt_quote (h : stateAt text k = ⟨depth, some q⟩) (hk : k ≤ text.length) :
    ∃ i < k, stateAt text i = ⟨depth, none⟩ ∧ quoteAt text i = some q ∧
      ∀ j, i < j → j < k → quoteAt text j ≠ some q := by
  induction k with
  | zero => simp [Nesting.top] at h
  | succ k ih =>
      obtain ⟨a, ha⟩ := exists_of_lt (show k < text.length by omega)
      rw [stateAt_succ ha] at h
      cases hstate : stateAt text k with
      | mk d p =>
        rw [hstate] at h
        cases p with
        | none =>
            -- only a mark begins a quotation, and then it is at `k`
            rcases symbol_cases a with ⟨p, hquote⟩ | hopening | hclosing | hplain
            · obtain ⟨rfl, rfl⟩ : d = depth ∧ p = q := by
                simpa [Nesting.step_of_mark hquote] using h
              exact ⟨k, Nat.lt_succ_self k, hstate, (quoteAt_eq ha).trans hquote,
                fun j hkj hjk => by omega⟩
            · simp [step_of_opening hopening] at h
            · simp [step_of_closing hclosing] at h
            · simp [step_of_plain hplain] at h
        | some p =>
            by_cases hquote : Quote.of? a = some p
            · simp [Nesting.step_of_equal_mark hquote] at h
            · -- the quotation goes on, so it began where it had begun before
              obtain ⟨rfl, rfl⟩ : d = depth ∧ p = q := by
                simpa [Nesting.step_of_quoted hquote] using h
              obtain ⟨i, hik, hopen, hopened, hunbroken⟩ := ih hstate (by omega)
              refine ⟨i, by omega, hopen, hopened, fun j hij hjk => ?_⟩
              rcases Nat.lt_succ_iff_lt_or_eq.mp hjk with hlt | rfl
              · exact hunbroken j hij hlt
              · rwa [quoteAt_eq ha]

lemma lt_length_of_quoteAt (h : quoteAt text i = some q) : i < text.length := by
  obtain ⟨a, ha, -⟩ := exists_of_quoteAt h
  exact (List.getElem?_eq_some_iff.mp ha).1

/-- The pass of the relation is the pass symbol by symbol, wherever it comes to stand. -/
lemma stateAt_of_reaches (h : Reaches text i depth) :
    i ≤ text.length ∧ stateAt text i = ⟨depth, none⟩ := by
  induction h with
  | start => exact ⟨Nat.zero_le _, rfl⟩
  | opening _ ha hopening ih =>
      obtain ⟨hlt, -⟩ := List.getElem?_eq_some_iff.mp ha
      exact ⟨hlt, by rw [stateAt_succ ha, ih.2, step_of_opening hopening]⟩
  | closing _ ha hclosing ih =>
      obtain ⟨hlt, -⟩ := List.getElem?_eq_some_iff.mp ha
      exact ⟨hlt, by rw [stateAt_succ ha, ih.2, step_of_closing hclosing]⟩
  | quotation _ hquotation ih =>
      have hlt := lt_length_of_quoteAt hquotation.closed
      obtain ⟨a, ha, hquote⟩ := exists_of_quoteAt hquotation.closed
      refine ⟨hlt, ?_⟩
      rw [stateAt_succ ha, stateAt_of_open ih.2 hquotation.opened hquotation.unbroken
        hquotation.lt (Nat.le_of_lt hlt), Nesting.step_of_equal_mark hquote]
  | other _ ha hplain ih =>
      obtain ⟨hlt, -⟩ := List.getElem?_eq_some_iff.mp ha
      exact ⟨hlt, by rw [stateAt_succ ha, ih.2, step_of_plain hplain]⟩

/-- The pass symbol by symbol is outside of quotations at the positions that the
pass quotation by quotation comes to. -/
theorem reaches_iff :
    Reaches text i depth ↔ i ≤ text.length ∧ stateAt text i = ⟨depth, none⟩ := by
  refine ⟨stateAt_of_reaches, ?_⟩
  rintro ⟨hi, h⟩
  induction i using Nat.strong_induction_on generalizing depth with
  | _ i ih =>
    cases i with
    | zero =>
        obtain rfl : 0 = depth := congrArg Nesting.depth h
        exact .start
    | succ i =>
        obtain ⟨a, ha⟩ := exists_of_lt (show i < text.length by omega)
        rw [stateAt_succ ha] at h
        cases hstate : stateAt text i with
        | mk d p =>
          rw [hstate] at h
          cases p with
          | none =>
              have hreach : Reaches text i d := ih i (Nat.lt_succ_self i) (by omega) hstate
              rcases symbol_cases a with ⟨p, hquote⟩ | hopening | hclosing | hplain
              · simp [Nesting.step_of_mark hquote] at h
              · obtain rfl : d + 1 = depth := by simpa [step_of_opening hopening] using h
                exact hreach.opening ha hopening
              · obtain rfl : d - 1 = depth := by simpa [step_of_closing hclosing] using h
                exact hreach.closing ha hclosing
              · obtain rfl : d = depth := by simpa [step_of_plain hplain] using h
                exact hreach.other ha hplain
          | some p =>
              -- `a` ends the quotation, which began at a position that is reached
              by_cases hquote : Quote.of? a = some p
              · obtain rfl : d = depth := by
                  simpa [Nesting.step_of_equal_mark hquote] using h
                obtain ⟨k, hki, hopen, hopened, hunbroken⟩ :=
                  exists_of_stateAt_quote hstate (by omega)
                have hreach : Reaches text k d := ih k (by omega) (by omega) hopen
                exact hreach.quotation ⟨hopened, hki, (quoteAt_eq ha).trans hquote, hunbroken⟩
              · simp [Nesting.step_of_quoted hquote] at h

/-- The pass comes to a quotation left open exactly if one is open at the end. -/
theorem meetsOpenQuote_iff :
    MeetsOpenQuote text ↔ (Nesting.top.past .any text).quote ≠ none := by
  rw [← stateAt_length]
  constructor
  · rintro ⟨i, depth, q, hreach, hopened, hlast⟩
    have hlt := lt_length_of_quoteAt hopened
    rw [stateAt_of_open (reaches_iff.mp hreach).2 hopened (fun j hij _ => hlast j hij) hlt
      (Nat.le_refl _)]
    simp
  · intro hopen
    cases hstate : stateAt text text.length with
    | mk depth p =>
      cases p with
      | none => simp [hstate] at hopen
      | some q =>
          obtain ⟨i, hlt, hstate', hopened, hunbroken⟩ :=
            exists_of_stateAt_quote hstate (Nat.le_refl _)
          refine ⟨i, depth, q, reaches_iff.mpr ⟨Nat.le_of_lt hlt, hstate'⟩, hopened, ?_⟩
          intro j hij hquote
          exact hunbroken j hij (lt_length_of_quoteAt hquote) hquote

/-- A symbol is exposed if it stands at top level and is no mark. -/
lemma exposes_stateAt_iff (ha : text[i]? = some a) :
    (stateAt text i).exposes .any a = true ↔ IsTopLevel text i ∧ Symbol.isMark a = false := by
  obtain ⟨hlt, -⟩ := List.getElem?_eq_some_iff.mp ha
  have hle : i ≤ text.length := Nat.le_of_lt hlt
  rw [IsTopLevel, reaches_iff, isMark_eq_false_iff]
  cases stateAt text i with
  | mk depth quote => simp [Nesting.exposes, hlt, hle, and_assoc]

end States

section Append

variable {left right : List α} {i : Nat}

/-- What stands behind a place does not concern a pass up to it. -/
lemma stateAt_append_of_le (h : i ≤ left.length) :
    stateAt (left ++ right) i = stateAt left i := by
  rw [stateAt, List.take_append_of_le_length h, stateAt]

/-- A text that ends at the top leaves a pass as it began. -/
lemma stateAt_append_add (hleft : Reaches left left.length 0) :
    stateAt (left ++ right) (left.length + i) = stateAt right i := by
  have htop : Nesting.top.past .any left = .top := by
    rw [← stateAt_length]
    exact (reaches_iff.mp hleft).2
  rw [stateAt, List.take_length_add_append, Nesting.past_append, htop, stateAt]

/-- Where the pass over the first text ends with nothing open, it begins anew with
the second one. -/
theorem isTopLevel_append_iff (hleft : Reaches left left.length 0) :
    IsTopLevel (left ++ right) i ↔
      IsTopLevel left i ∨ ∃ j, i = left.length + j ∧ IsTopLevel right j := by
  simp only [IsTopLevel, reaches_iff, List.length_append]
  rcases Nat.lt_or_ge i left.length with hlt | hge
  · rw [stateAt_append_of_le (Nat.le_of_lt hlt)]
    constructor
    · rintro ⟨-, -, hstate⟩
      exact .inl ⟨hlt, Nat.le_of_lt hlt, hstate⟩
    · rintro (⟨-, -, hstate⟩ | ⟨j, rfl, -⟩)
      · exact ⟨by omega, by omega, hstate⟩
      · omega
  · obtain ⟨j, rfl⟩ := Nat.exists_eq_add_of_le hge
    rw [stateAt_append_add hleft]
    constructor
    · rintro ⟨hlt, -, hstate⟩
      exact .inr ⟨j, rfl, by omega, by omega, hstate⟩
    · rintro (⟨hlt, -⟩ | ⟨k, hk, hlt, hle, hstate⟩)
      · omega
      · obtain rfl : j = k := by omega
        exact ⟨by omega, by omega, hstate⟩

end Append

/-! ### The pieces between delimiters -/

/-- What stands between positions of a text, from `start` on. The symbols at the
positions belong to no piece. -/
def piecesBetween (text : List α) (start : Nat) : List Nat → List (List α)
  | [] => [text.drop start]
  | i :: cuts => (text.take i).drop start :: piecesBetween text (i + 1) cuts

omit [Symbol α] in
/-- There is one piece more than there are cuts. -/
lemma length_piecesBetween (text : List α) (start : Nat) (cuts : List Nat) :
    (piecesBetween text start cuts).length = cuts.length + 1 := by
  induction cuts generalizing start with
  | nil => rfl
  | cons i cuts ih => rw [piecesBetween, List.length_cons, ih, List.length_cons]

omit [Symbol α] in
/-- The pieces of a text do not change when a symbol comes in front of it. -/
lemma piecesBetween_cons (a : α) (text : List α) (start : Nat) (cuts : List Nat) :
    piecesBetween (a :: text) (start + 1) (cuts.map (· + 1)) = piecesBetween text start cuts := by
  induction cuts generalizing start with
  | nil => rfl
  | cons i cuts ih => simp [piecesBetween, ih]

/-- The symbol at a position is an exposed delimiter. -/
def IsCut (delimiter : Char) (s : Nesting) (text : List α) (i : Nat) : Prop :=
  ∃ a, text[i]? = some a ∧ (s.past .any (text.take i)).exposes .any a = true ∧
    Symbol.is delimiter a = true

section Cuts

variable {delimiter : Char} {s : Nesting} {a : α} {text : List α} {i : Nat}

lemma isCut_zero :
    IsCut delimiter s (a :: text) 0 ↔
      (s.exposes .any a && Symbol.is delimiter a) = true := by
  simp [IsCut]

lemma isCut_succ :
    IsCut delimiter s (a :: text) (i + 1) ↔ IsCut delimiter (s.step .any a) text i := by
  simp [IsCut]

/-- Pieces are found where no quotation is left open. -/
lemma cut_eq_none_iff : cut delimiter s text = none ↔ (s.past .any text).quote ≠ none := by
  induction text generalizing s with
  | nil => cases hquote : s.quote <;> simp [cut, hquote]
  | cons a text ih => rw [cut, Option.map_eq_none_iff, ih, Nesting.past_cons]

/-- The pieces are what stands between the exposed delimiters, which are found from
left to right. -/
lemma exists_cuts {piece : List α} {more : List (List α)}
    (h : cut delimiter s text = some (piece, more)) :
    ∃ cuts : List Nat, cuts.Pairwise (· < ·) ∧ (∀ i, i ∈ cuts ↔ IsCut delimiter s text i) ∧
      piece :: more = piecesBetween text 0 cuts := by
  induction text generalizing s piece more with
  | nil =>
      rw [cut] at h
      split_ifs at h
      obtain ⟨rfl, rfl⟩ := Prod.mk.inj (Option.some.inj h)
      exact ⟨[], .nil, by simp [IsCut], rfl⟩
  | cons a text ih =>
      rw [cut] at h
      obtain ⟨⟨piece', more'⟩, hcut, heq⟩ := Option.map_eq_some_iff.mp h
      obtain ⟨cuts, hincreasing, hmem, hpieces⟩ := ih hcut
      have hmapped : (cuts.map (· + 1)).Pairwise (· < ·) :=
        List.pairwise_map.mpr (hincreasing.imp fun hlt => Nat.succ_lt_succ hlt)
      dsimp only at heq
      split_ifs at heq with hhere
      · obtain ⟨rfl, rfl⟩ := Prod.mk.inj heq
        refine ⟨0 :: cuts.map (· + 1), List.pairwise_cons.mpr ⟨by simp, hmapped⟩, ?_, ?_⟩
        · rintro (_ | i)
          · simp [isCut_zero, hhere]
          · simp [isCut_succ, ← hmem]
        · rw [piecesBetween, piecesBetween_cons, hpieces]
          rfl
      · obtain ⟨rfl, rfl⟩ := Prod.mk.inj heq
        refine ⟨cuts.map (· + 1), hmapped, ?_, ?_⟩
        · rintro (_ | i)
          · simp [isCut_zero, hhere]
          · simp [isCut_succ, ← hmem]
        · -- the symbol goes to the first piece, which ends at the first cut or with the text
          cases cuts with
          | nil =>
              obtain ⟨rfl, rfl⟩ := List.cons.inj hpieces
              rfl
          | cons i cuts =>
              obtain ⟨rfl, rfl⟩ := List.cons.inj hpieces
              rw [List.map_cons, piecesBetween, piecesBetween_cons]
              rfl

/-- A cut is a delimiter at the top level. -/
lemma isCut_top_iff (hdelimiter : ∀ a : α, Symbol.is delimiter a = true → Symbol.isMark a = false) :
    IsCut delimiter .top text i ↔
      IsTopLevel text i ∧ ∃ a, text[i]? = some a ∧ Symbol.is delimiter a = true := by
  constructor
  · rintro ⟨a, ha, hexposed, his⟩
    exact ⟨((exposes_stateAt_iff ha).mp hexposed).1, a, ha, his⟩
  · rintro ⟨htop, a, ha, his⟩
    exact ⟨a, ha, (exposes_stateAt_iff ha).mpr ⟨htop, hdelimiter a his⟩, his⟩

end Cuts

/-- The pieces, joined by the delimiter, are the text again. -/
lemma intercalate_of_cut {delimiter : Char} {s : Nesting} {text piece : List Char}
    {more : List (List Char)} (h : cut delimiter s text = some (piece, more)) :
    [delimiter].intercalate (piece :: more) = text := by
  induction text generalizing s piece more with
  | nil =>
      rw [cut] at h
      split_ifs at h
      obtain ⟨rfl, rfl⟩ := Prod.mk.inj (Option.some.inj h)
      rfl
  | cons c text ih =>
      rw [cut] at h
      obtain ⟨⟨piece', more'⟩, hcut, heq⟩ := Option.map_eq_some_iff.mp h
      have hjoin := ih hcut
      dsimp only at heq
      split_ifs at heq with hhere
      · obtain ⟨rfl, rfl⟩ := Prod.mk.inj heq
        rw [Bool.and_eq_true, Symbol.is_char] at hhere
        rw [List.intercalate_cons_cons, hjoin, hhere.2]
        rfl
      · obtain ⟨rfl, rfl⟩ := Prod.mk.inj heq
        cases more' with
        | nil => simpa using hjoin
        | cons next more =>
            rw [List.intercalate_cons_cons] at hjoin ⊢
            rw [← hjoin]
            rfl

/-! ### The last place of a pattern -/

/-- The pattern begins at an exposed symbol. -/
def IsExposedAt (pattern : List α) (s : Nesting) (text : List α) (i : Nat) : Prop :=
  ∃ a, text[i]? = some a ∧ (s.past .any (text.take i)).exposes .any a = true ∧
    pattern <+: text.drop i

section Search

variable {pattern : List α} {s : Nesting} {a : α} {text : List α} {i : Nat}

lemma isExposedAt_succ :
    IsExposedAt pattern s (a :: text) (i + 1) ↔
      IsExposedAt pattern (s.step .any a) text i := by
  simp [IsExposedAt]

variable [BEq α] [LawfulBEq α]

lemma isExposedAt_zero :
    IsExposedAt pattern s (a :: text) 0 ↔
      (s.exposes .any a && pattern.isPrefixOf (a :: text)) = true := by
  simp [IsExposedAt]

/-- The search finds the last exposed place of the pattern, if there is one. -/
lemma lastExposed_spec (pattern : List α) (s : Nesting) (text : List α) :
    (∀ i, lastExposed pattern s text = some i →
        IsGreatest {i | IsExposedAt pattern s text i} i) ∧
      (lastExposed pattern s text = none → ∀ i, ¬ IsExposedAt pattern s text i) := by
  induction text generalizing s with
  | nil => exact ⟨by simp [lastExposed], by simp [IsExposedAt]⟩
  | cons a text ih =>
      obtain ⟨hsome, hnone⟩ := ih (s.step .any a)
      rw [lastExposed]
      cases hrest : lastExposed pattern (s.step .any a) text with
      | some k =>
          -- what is found in the rest is behind anything that is found here
          obtain ⟨hmem, hmax⟩ := hsome k hrest
          refine ⟨?_, by simp⟩
          rintro _ ⟨⟩
          refine ⟨isExposedAt_succ.mpr hmem, ?_⟩
          rintro (_ | j) hj
          · exact Nat.zero_le _
          · exact Nat.succ_le_succ (hmax (isExposedAt_succ.mp hj))
      | none =>
          have hlater : ∀ j, ¬ IsExposedAt pattern s (a :: text) (j + 1) := fun j hj =>
            hnone hrest j (isExposedAt_succ.mp hj)
          dsimp only
          split_ifs with hhere
          · refine ⟨?_, by simp⟩
            rintro _ ⟨⟩
            refine ⟨isExposedAt_zero.mpr hhere, ?_⟩
            rintro (_ | j) hj
            · exact Nat.le_refl 0
            · exact absurd hj (hlater j)
          · refine ⟨by simp, fun _ => ?_⟩
            rintro (_ | j) hj
            · exact hhere (isExposedAt_zero.mp hj)
            · exact hlater j hj

omit [BEq α] [LawfulBEq α] in
/-- A pattern that begins with a plain symbol is exposed at top level. -/
lemma isExposedAt_top_iff {b : α} (hb : b ∈ pattern.head?) (hplain : Symbol.isMark b = false) :
    IsExposedAt pattern .top text i ↔ IsTopLevel text i ∧ pattern <+: text.drop i := by
  constructor
  · rintro ⟨a, ha, hexposed, hpattern⟩
    exact ⟨((exposes_stateAt_iff ha).mp hexposed).1, hpattern⟩
  · rintro ⟨htop, hpattern⟩
    obtain ⟨rest, rfl⟩ := List.head?_eq_some_iff.mp hb
    obtain ⟨after, hafter⟩ := hpattern
    have hfirst : text[i]? = some b := by
      rw [← List.head?_drop, ← hafter]
      rfl
    exact ⟨b, hfirst, (exposes_stateAt_iff hfirst).mpr ⟨htop, hplain⟩, after, hafter⟩

section

variable {b : α} (hb : b ∈ pattern.head?) (hplain : Symbol.isMark b = false)

include hb hplain

/-- The last place of a pattern is the greatest position at top level where it
begins. -/
theorem lastTopLevel_eq_some_iff :
    lastTopLevel pattern text = some i ↔
      IsGreatest {i | IsTopLevel text i ∧ pattern <+: text.drop i} i := by
  obtain ⟨hsome, hnone⟩ := lastExposed_spec pattern .top text
  simp only [isExposedAt_top_iff hb hplain] at hsome hnone
  rw [lastTopLevel]
  refine ⟨hsome i, fun hgreatest => ?_⟩
  cases hfound : lastExposed pattern .top text with
  | none => exact absurd hgreatest.1 (hnone hfound i)
  | some k => rw [(hsome k hfound).unique hgreatest]

/-- The search fails exactly if the pattern stands nowhere at the top level. -/
theorem lastTopLevel_eq_none_iff :
    lastTopLevel pattern text = none ↔
      ∀ i, IsTopLevel text i → ¬ pattern <+: text.drop i := by
  obtain ⟨hsome, hnone⟩ := lastExposed_spec pattern .top text
  simp only [isExposedAt_top_iff hb hplain] at hsome hnone
  rw [lastTopLevel]
  refine ⟨fun h i htop hpattern => hnone h i ⟨htop, hpattern⟩, fun h => ?_⟩
  by_contra hne
  obtain ⟨i, hi⟩ := Option.ne_none_iff_exists'.mp hne
  obtain ⟨⟨htop, hpattern⟩, -⟩ := hsome i hi
  exact h i htop hpattern

end

end Search

end Text

end SelectorPath
