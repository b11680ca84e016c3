/-
Arguments in parentheses, after the name of a pseudo-class or property.
-/
import SelectorPath.Selector.Error
import SelectorPath.Text.Nesting

namespace SelectorPath.Argument

/-- The argument at the front, as it stands between its parentheses, and the
text after it. Without an opening parenthesis there is no argument. -/
def read : List Char → Except Cause (Option (List Char) × List Char)
  | '(' :: text =>
    match Text.readParenthesized text with
    | some (argument, rest) => .ok (some argument, rest)
    | none => .error .openParenthesis
  | text => .ok (none, text)

/-- An argument comes out of the text together with its two parentheses. -/
theorem length_read {text rest : List Char} {argument : Option (List Char)}
    (h : read text = .ok (argument, rest)) :
    rest.length + argument.elim 0 (fun a => a.length + 2) ≤ text.length := by
  rw [read.eq_def] at h
  split at h
  · split at h
    · next hread =>
      have := Text.length_of_readGroup hread
      obtain ⟨rfl, rfl⟩ := by simpa using h
      simp only [Option.elim_some, List.length_cons]
      omega
    · simp at h
  · obtain ⟨rfl, rfl⟩ := by simpa using h
    simp

end SelectorPath.Argument
