/-
Expressions of XPath over strings and attributes.

This is the part of the language in which conditions on attributes are written:
strings, attributes by name and under a condition, calls of functions, and
equalities between these.

* `XPath.Expression`: the expressions, and `Expression.tokens` their written form.
* `Expression.append_inj`: the written form determines the expression.
* `XPath.Reads`, `XPath.ReadsOnly`: a text is a way to write an expression, and no
  other.
* `Spells.attribute`, `Spells.filtered`, `Spells.equal`, `Spells.call`: the texts of
  the parts, put together from the texts in them.
-/
import SelectorPath.Proofs.XPath.Tokens
import SelectorPath.XPath.NodeTest

namespace SelectorPath.XPath

open Text

/-- The functions that are called. -/
inductive CoreFunction where
  | name
  | not
  | startsWith
  | endsWith
  | contains
  | concat
  | normalizeSpace
  deriving DecidableEq

/-- The name of a function. -/
def CoreFunction.title : CoreFunction → String
  | .name => "name"
  | .not => "not"
  | .startsWith => "starts-with"
  | .endsWith => "ends-with"
  | .contains => "contains"
  | .concat => "concat"
  | .normalizeSpace => "normalize-space"

mutual

/-- What an equality has on its sides. -/
inductive Operand where
  /-- A string. -/
  | string (value : String)
  /-- The attributes that pass a test. -/
  | attributes (test : NodeTest)
  /-- The attributes that pass a test and are under a condition. -/
  | filtered (test : NodeTest) (filter : Expression)
  /-- The call of a function. -/
  | call (f : CoreFunction) (arguments : List Expression)

/-- An operand, or the equality of two. -/
inductive Expression where
  | operand (a : Operand)
  | equal (a b : Operand)

end

/-- An attribute by its name. -/
abbrev Expression.attribute (name : String) : Expression := .operand (.attributes (.named name))

/-- The call of a function. -/
abbrev Expression.call (f : CoreFunction) (arguments : List Expression) : Expression :=
  .operand (.call f arguments)

/-- The token of a test. -/
def testToken : NodeTest → Token
  | .any => .mark '*'
  | .named name => .word name

mutual

/-- The operand as it is written. -/
def Operand.tokens : Operand → List Token
  | .string value => [.string value]
  | .attributes test => [.mark '@', testToken test]
  | .filtered test filter =>
    .mark '@' :: testToken test :: .mark '[' :: (filter.tokens ++ [.mark ']'])
  | .call f arguments => .word f.title :: .mark '(' :: argumentTokens arguments

/-- The expression as it is written. -/
def Expression.tokens : Expression → List Token
  | .operand a => a.tokens
  | .equal a b => a.tokens ++ .mark '=' :: b.tokens

/-- The arguments of a call, and the end of the call. -/
def argumentTokens : List Expression → List Token
  | [] => [.mark ')']
  | e :: more => e.tokens ++ furtherTokens more

/-- The arguments after another, and the end of the call. -/
def furtherTokens : List Expression → List Token
  | [] => [.mark ')']
  | e :: more => .mark ',' :: (e.tokens ++ furtherTokens more)

end

/-! ### The written form determines the expression -/

lemma testToken_inj {s t : NodeTest} (h : testToken s = testToken t) : s = t := by
  cases s <;> cases t <;> simp_all [testToken]

lemma CoreFunction.title_inj {f g : CoreFunction} (h : f.title = g.title) : f = g := by
  revert h
  cases f <;> cases g <;> decide

/-- An operand begins with a string, with the mark of attributes or with the name of a
function. -/
lemma Operand.tokens_eq_cons (a : Operand) :
    ∃ t rest, a.tokens = t :: rest ∧ t ≠ .mark ')' := by
  cases a <;> exact ⟨_, _, by rw [Operand.tokens], by simp⟩

/-- No expression is empty or begins with a closing mark, by which arguments can be told
from their end. -/
lemma Expression.tokens_eq_cons (e : Expression) :
    ∃ t rest, e.tokens = t :: rest ∧ t ≠ .mark ')' := by
  cases e with
  | operand a => exact a.tokens_eq_cons
  | equal a b =>
      obtain ⟨t, rest, ha, ht⟩ := a.tokens_eq_cons
      exact ⟨t, _, by rw [Expression.tokens, ha, List.cons_append], ht⟩

/-- An operand can end here: no condition on its attributes follows. -/
def Operand.Ends (rest : List Token) : Prop := rest.head? ≠ some (.mark '[')

/-- An expression can end here: neither a condition nor a second side follows. -/
def Expression.Ends (rest : List Token) : Prop :=
  Operand.Ends rest ∧ rest.head? ≠ some (.mark '=')

/-- After an argument there is a comma or the end of the call. -/
lemma ends_furtherTokens (l : List Expression) (rest : List Token) :
    Expression.Ends (furtherTokens l ++ rest) := by
  cases l <;> simp [furtherTokens, Expression.Ends, Operand.Ends]

mutual

/-- Operands are written in a prefix-free way: what is written determines the operand
and what stands behind it. -/
theorem Operand.append_inj : ∀ (a b : Operand) {r s : List Token}, Operand.Ends r →
    Operand.Ends s → a.tokens ++ r = b.tokens ++ s → a = b ∧ r = s
  | .string _, b, _, _, _, _, h => by
    cases b with
    | string _ => simpa [Operand.tokens] using h
    | _ => simp [Operand.tokens] at h
  | .attributes test, b, r, s, hr, _, h => by
    cases b with
    | attributes test' =>
        obtain ⟨htest, rfl⟩ : testToken test = testToken test' ∧ r = s := by
          simpa [Operand.tokens] using h
        exact ⟨by rw [testToken_inj htest], rfl⟩
    | filtered _ _ =>
        -- a condition on the attributes is no part of what stands behind them
        simp only [Operand.tokens, List.cons_append, List.cons.injEq, List.nil_append] at h
        exact absurd (by rw [h.2.2, List.head?_cons]) hr
    | _ => simp [Operand.tokens] at h
  | .filtered test e, b, r, s, _, hs, h => by
    cases b with
    | filtered test' e' =>
        simp only [Operand.tokens, List.cons_append, List.append_assoc, List.cons.injEq,
          true_and] at h
        obtain ⟨htest, h⟩ := h
        obtain ⟨rfl, hrest⟩ := Expression.append_inj e e' (by simp [Expression.Ends, Operand.Ends])
          (by simp [Expression.Ends, Operand.Ends]) h
        exact ⟨by rw [testToken_inj htest], by simpa using hrest⟩
    | attributes _ =>
        simp only [Operand.tokens, List.cons_append, List.cons.injEq, List.nil_append] at h
        exact absurd (by rw [← h.2.2, List.head?_cons]) hs
    | _ => simp [Operand.tokens] at h
  | .call f l, b, r, s, _, _, h => by
    cases b with
    | call g m =>
        simp only [Operand.tokens, List.cons_append, List.cons.injEq, Token.word.injEq,
          true_and] at h
        obtain ⟨rfl, rfl⟩ := argumentTokens_append_inj l m h.2
        exact ⟨by rw [CoreFunction.title_inj h.1], rfl⟩
    | _ => simp [Operand.tokens] at h

/-- Expressions are written in a prefix-free way. -/
theorem Expression.append_inj : ∀ (e f : Expression) {r s : List Token}, Expression.Ends r →
    Expression.Ends s → e.tokens ++ r = f.tokens ++ s → e = f ∧ r = s
  | .operand a, f, r, s, hr, hs, h => by
    cases f with
    | operand b =>
        obtain ⟨rfl, rfl⟩ := Operand.append_inj a b hr.1 hs.1 h
        exact ⟨rfl, rfl⟩
    | equal b c =>
        rw [Expression.tokens, Expression.tokens, List.append_assoc, List.cons_append] at h
        obtain ⟨-, rfl⟩ := Operand.append_inj a b hr.1 (by simp [Operand.Ends]) h
        simp [Expression.Ends] at hr
  | .equal a c, f, r, s, hr, hs, h => by
    cases f with
    | operand b =>
        rw [Expression.tokens, Expression.tokens, List.append_assoc, List.cons_append] at h
        obtain ⟨-, rfl⟩ := Operand.append_inj a b (by simp [Operand.Ends]) hs.1 h
        simp [Expression.Ends] at hs
    | equal b d =>
        simp only [Expression.tokens, List.append_assoc, List.cons_append] at h
        obtain ⟨rfl, hsides⟩ :=
          Operand.append_inj a b (by simp [Operand.Ends]) (by simp [Operand.Ends]) h
        obtain ⟨rfl, rfl⟩ := Operand.append_inj c d hr.1 hs.1 (List.cons.inj hsides).2
        exact ⟨rfl, rfl⟩

/-- So are the arguments of a call. -/
theorem argumentTokens_append_inj : ∀ (l m : List Expression) {r s : List Token},
    argumentTokens l ++ r = argumentTokens m ++ s → l = m ∧ r = s
  | [], m, r, s, h => by
    cases m with
    | nil => simpa [argumentTokens] using h
    | cons f m =>
        obtain ⟨t, rest, hf, ht⟩ := f.tokens_eq_cons
        simp only [argumentTokens, hf, List.cons_append, List.cons.injEq] at h
        exact absurd h.1.symm ht
  | e :: l, m, r, s, h => by
    cases m with
    | nil =>
        obtain ⟨t, rest, he, ht⟩ := e.tokens_eq_cons
        simp only [argumentTokens, he, List.cons_append, List.cons.injEq] at h
        exact absurd h.1 ht
    | cons f m =>
        rw [argumentTokens, argumentTokens, List.append_assoc, List.append_assoc] at h
        obtain ⟨rfl, hmore⟩ :=
          Expression.append_inj e f (ends_furtherTokens l r) (ends_furtherTokens m s) h
        obtain ⟨rfl, rfl⟩ := furtherTokens_append_inj l m hmore
        exact ⟨rfl, rfl⟩

/-- The arguments after the first one can be told from what follows them. -/
theorem furtherTokens_append_inj : ∀ (l m : List Expression) {r s : List Token},
    furtherTokens l ++ r = furtherTokens m ++ s → l = m ∧ r = s
  | [], m, r, s, h => by
    cases m with
    | nil => simpa [furtherTokens] using h
    | cons f m => simp [furtherTokens] at h
  | e :: l, m, r, s, h => by
    cases m with
    | nil => simp [furtherTokens] at h
    | cons f m =>
        simp only [furtherTokens, List.cons_append, List.append_assoc, List.cons.injEq,
          true_and] at h
        obtain ⟨rfl, hmore⟩ :=
          Expression.append_inj e f (ends_furtherTokens l r) (ends_furtherTokens m s) h
        obtain ⟨rfl, rfl⟩ := furtherTokens_append_inj l m hmore
        exact ⟨rfl, rfl⟩

end

/-! ### Texts that are read as expressions -/

/-- The text is a way to write the expression. -/
def Reads (text : String) (e : Expression) : Prop := tokens? text.toList = some e.tokens

/-- The text is a way to write this expression, and no other. -/
def ReadsOnly (text : String) (e : Expression) : Prop := ∀ e', Reads text e' ↔ e' = e

/-- A text is a way to write one expression at most. -/
theorem Reads.readsOnly {text : String} {e : Expression} (h : Reads text e) :
    ReadsOnly text e := by
  refine fun e' => ⟨fun h' => ?_, fun heq => heq ▸ h⟩
  have htokens : e'.tokens ++ [] = e.tokens ++ [] := by
    rw [Option.some.inj (h'.symm.trans h)]
  exact (Expression.append_inj e' e (by simp [Expression.Ends, Operand.Ends])
    (by simp [Expression.Ends, Operand.Ends]) htokens).1

/-- A text that spells the tokens of an expression is read as this expression only. -/
lemma Spells.readsOnly {text : String} {e : Expression} (h : Spells text e.tokens) :
    ReadsOnly text e :=
  Reads.readsOnly h.tokens_eq

/-! ### How operands and expressions are spelled -/

/-- An attribute by its name. -/
lemma Spells.attribute {name : String} (h : IsWordText name) :
    Spells ("@" ++ name) (Operand.attributes (.named name)).tokens := by
  intro rest hrest
  rw [String.toList_append, List.append_assoc]
  show tokens? ('@' :: (name.toList ++ rest)) = _
  rw [tokens?_mark (by decide), Spells.word h rest hrest, Option.map_map]
  rfl

/-- All attributes that are under a condition. -/
lemma Spells.filtered {text : String} {e : Expression} (h : Spells text e.tokens) :
    Spells ("@*[" ++ text ++ "]") (Operand.filtered .any e).tokens := by
  intro rest _
  rw [String.toList_append, String.toList_append, List.append_assoc, List.append_assoc]
  show tokens? ('@' :: '*' :: '[' :: (text.toList ++ ']' :: rest)) = _
  rw [tokens?_mark (by decide), tokens?_mark (by decide), tokens?_mark (by decide),
    h.append_mark (by decide)]
  simp [Operand.tokens, testToken, Function.comp_def]

/-- An equality without spaces. -/
lemma Spells.equal {text text' : String} {a b : Operand} (ha : Spells text a.tokens)
    (hb : Spells text' b.tokens) : Spells (text ++ "=" ++ text') (Expression.equal a b).tokens := by
  intro rest hrest
  rw [String.toList_append, String.toList_append, List.append_assoc, List.append_assoc]
  show tokens? (text.toList ++ '=' :: (text'.toList ++ rest)) = _
  rw [ha.append_mark (by decide), hb rest hrest]
  simp [Expression.tokens, Function.comp_def]

/-- Words do not run on into what follows an argument. -/
lemma breaks_further (texts : List String) (rest : List Char) :
    Breaks (texts.flatMap (", ".toList ++ ·.toList) ++ ')' :: rest) := by
  cases texts <;> simp [Breaks] <;> decide

/-- The arguments of a call after the first, each behind a comma and a space. -/
lemma tokens?_further {texts : List String} {l : List Expression}
    (h : List.Forall₂ (fun text e => Spells text e.tokens) texts l) (rest : List Char) :
    tokens? (texts.flatMap (", ".toList ++ ·.toList) ++ ')' :: rest) =
      (tokens? rest).map (furtherTokens l ++ ·) := by
  induction h with
  | nil => exact tokens?_mark (by decide)
  | @cons text e texts l htext _ ih =>
      rw [List.flatMap_cons, List.append_assoc, List.append_assoc]
      show tokens? (',' :: ' ' :: (text.toList ++ _)) = _
      rw [tokens?_mark (by decide), tokens?_space (by decide),
        htext _ (breaks_further texts rest), ih]
      simp [furtherTokens, Function.comp_def]

/-- The text of a call. -/
def callText (f : CoreFunction) (texts : List String) : String :=
  f.title ++ "(" ++ ", ".intercalate texts ++ ")"

lemma isWordText_title (f : CoreFunction) : IsWordText f.title := by
  cases f <;> decide

/-- The call of a function, with a comma and a space between its arguments. -/
lemma Spells.call (f : CoreFunction) {texts : List String} {l : List Expression}
    (h : List.Forall₂ (fun text e => Spells text e.tokens) texts l) :
    Spells (callText f texts) (Expression.call f l).tokens := by
  intro rest _
  have hcall : (callText f texts).toList ++ rest =
      f.title.toList ++ '(' :: ((", ".intercalate texts).toList ++ ')' :: rest) := by
    simp [callText]
  rw [hcall, (Spells.word (isWordText_title f)).append_mark (by decide)]
  cases h with
  | nil =>
      show Option.map _ (tokens? (')' :: rest)) = _
      rw [tokens?_mark (by decide)]
      simp [Expression.tokens, Operand.tokens, argumentTokens, Function.comp_def]
  | @cons text e texts l hfirst hmore =>
      have harguments : (", ".intercalate (text :: texts)).toList ++ ')' :: rest =
          text.toList ++ (texts.flatMap (", ".toList ++ ·.toList) ++ ')' :: rest) := by
        rw [String.toList_intercalate, List.map_cons, intercalate_cons, List.append_assoc,
          List.flatMap_map]
      rw [harguments, hfirst _ (breaks_further texts rest), tokens?_further hmore]
      simp [Expression.tokens, Operand.tokens, argumentTokens, Function.comp_def]

/-- The name of a function and the bracket behind it. -/
def CoreFunction.opening : CoreFunction → String
  | .name => "name("
  | .not => "not("
  | .startsWith => "starts-with("
  | .endsWith => "ends-with("
  | .contains => "contains("
  | .concat => "concat("
  | .normalizeSpace => "normalize-space("

lemma CoreFunction.opening_eq (f : CoreFunction) : f.opening = f.title ++ "(" := by
  cases f <;> decide +kernel

section

variable (f : CoreFunction) {a b c : String} {e₁ e₂ e₃ : Expression}

lemma Spells.call_none : Spells (f.opening ++ ")") (Expression.call f []).tokens := by
  have hspells := Spells.call f .nil
  rwa [callText, ← f.opening_eq, String.intercalate_nil, String.append_empty] at hspells

/-- A call is spelled by its title and its arguments; one for each number of arguments
that occurs. -/
lemma Spells.call_one (ha : Spells a e₁.tokens) :
    Spells (f.opening ++ a ++ ")") (Expression.call f [e₁]).tokens := by
  have hspells := Spells.call f (.cons ha .nil)
  rwa [callText, ← f.opening_eq, String.intercalate_singleton] at hspells

lemma Spells.call_two (ha : Spells a e₁.tokens) (hb : Spells b e₂.tokens) :
    Spells (f.opening ++ a ++ ", " ++ b ++ ")") (Expression.call f [e₁, e₂]).tokens := by
  have hspells := Spells.call f (.cons ha (.cons hb .nil))
  rw [callText, ← f.opening_eq, String.intercalate_cons_cons,
    String.intercalate_singleton] at hspells
  simpa only [String.append_assoc] using hspells

lemma Spells.call_three (ha : Spells a e₁.tokens) (hb : Spells b e₂.tokens)
    (hc : Spells c e₃.tokens) :
    Spells (f.opening ++ a ++ ", " ++ b ++ ", " ++ c ++ ")")
      (Expression.call f [e₁, e₂, e₃]).tokens := by
  have hspells := Spells.call f (.cons ha (.cons hb (.cons hc .nil)))
  rw [callText, ← f.opening_eq, String.intercalate_cons_cons, String.intercalate_cons_cons,
    String.intercalate_singleton] at hspells
  simpa only [String.append_assoc] using hspells

end

end SelectorPath.XPath
