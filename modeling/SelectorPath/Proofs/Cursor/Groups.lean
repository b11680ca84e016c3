/-
Groups read by a cursor.

Between any two characters, the calls for attribute tests and for arguments take the
one body there is in front of a closing mark, and leave the cursor behind the mark. If
there is none the cursor stays.

* `Cursor.TakesBodies`: a call takes exactly the bodies of one kind.
* `Cursor.takesBodies_of_reader`: a call takes the bodies that its reader finds in
  characters, if the reader finds the same in bytes.
* `Cursor.group_calls_take_bodies`: arguments and attribute tests.
-/
import SelectorPath.Proofs.Cursor.Boundaries
import SelectorPath.Proofs.Text.Bodies

namespace SelectorPath.Cursor

open Text (encode IsArgumentBody IsTestBody)

/-- The call takes exactly the bodies of one kind, in front of their closing mark and at
any boundary of any text. -/
structure TakesBodies (op : Op) (closing : Char) (IsBody : List Char → Prop) : Prop where
  /-- What is taken is a body, and the cursor comes to stand behind the mark after it. -/
  some_iff : ∀ (left right : List Char) (body : String) (c : Cursor),
    (between left right).step op = some (.text (some body), c) ↔
      ∃ rest, right = body.toList ++ closing :: rest ∧ IsBody body.toList ∧
        c = between (left ++ body.toList ++ [closing]) rest
  /-- Nothing is taken exactly if there is no body, and then the cursor stays. -/
  none_iff : ∀ (left right : List Char) (c : Cursor),
    (between left right).step op = some (.text none, c) ↔
      (¬ ∃ body rest, right = body ++ closing :: rest ∧ IsBody body) ∧ c = between left right
  /-- There is never a choice between two bodies. -/
  unique : ∀ {body rest body' rest' : List Char}, IsBody body → IsBody body' →
    body ++ closing :: rest = body' ++ closing :: rest' → body = body' ∧ rest = rest'

section

variable {op : Op} {closing : Char} {IsBody : List Char → Prop}
  {readBytes : List UInt8 → Option (List UInt8 × List UInt8)}
  {readText : List Char → Option (List Char × List Char)}
  (hop : ∀ c : Cursor, c.step op = c.reading (readBytes c.rest))
  (hbytes : ∀ text, readBytes (encode text) =
    (readText text).map fun found => (encode found.1, encode found.2))
  (htext : ∀ {text body rest}, readText text = some (body, rest) ↔
    text = body ++ closing :: rest ∧ IsBody body)

include hop hbytes

/-- Where there is no body, nothing is taken up. -/
lemma step_eq_of_none {left right : List Char} (h : readText right = none) :
    (between left right).step op = some (.text none, between left right) := by
  rw [hop, rest_between, hbytes, h]
  rfl

include htext

/-- A body is taken up with the mark that closes it. -/
lemma step_eq_of_some {left right body rest : List Char} (h : readText right = some (body, rest)) :
    (between left right).step op =
      some (.text (some (String.ofList body)), between (left ++ body ++ [closing]) rest) := by
  have hright : right = (body ++ [closing]) ++ rest := by simp [(htext.mp h).1]
  rw [hop, rest_between, hbytes, h, Option.map_some, hright, reading_between, List.append_assoc]

/-- A call takes the bodies that its reader finds. -/
theorem takesBodies_of_reader : TakesBodies op closing IsBody where
  some_iff left right s c := by
    constructor
    · intro h
      cases hfound : readText right with
      | none => simp [step_eq_of_none hop hbytes hfound] at h
      | some found =>
          obtain ⟨body, rest⟩ := found
          obtain ⟨hright, hbody⟩ := htext.mp hfound
          rw [step_eq_of_some hop hbytes htext hfound] at h
          simp only [Option.some.injEq, Prod.mk.injEq, Reply.text.injEq] at h
          obtain ⟨rfl, rfl⟩ := h
          rw [String.toList_ofList]
          exact ⟨rest, hright, hbody, rfl⟩
    · rintro ⟨rest, hright, hbody, rfl⟩
      rw [step_eq_of_some hop hbytes htext (htext.mpr ⟨hright, hbody⟩), String.ofList_toList]
  none_iff left right c := by
    cases hfound : readText right with
    | none =>
        have hnone : ¬ ∃ body rest, right = body ++ closing :: rest ∧ IsBody body := by
          rintro ⟨body, rest, hbody⟩
          simp [htext.mpr hbody] at hfound
        rw [step_eq_of_none hop hbytes hfound, and_iff_right hnone]
        simp [eq_comm]
    | some found =>
        obtain ⟨body, rest⟩ := found
        rw [step_eq_of_some hop hbytes htext hfound]
        simp only [Option.some.injEq, Prod.mk.injEq, Reply.text.injEq, reduceCtorEq, false_and,
          false_iff, not_and]
        exact fun hnone => absurd ⟨body, rest, htext.mp hfound⟩ hnone
  -- two bodies at one place are both what is read there
  unique hbody hbody' heq := by
    have hread := (htext.mpr ⟨rfl, hbody⟩).symm.trans (htext.mpr ⟨heq, hbody'⟩)
    exact Prod.mk.inj (Option.some.inj hread)

end

/-- The calls for arguments and for attribute tests take exactly the bodies between their
marks: parentheses in arguments have their partners, and no `]` stands outside of the
quotations of a test. -/
theorem group_calls_take_bodies :
    TakesBodies .readParenthesized ')' IsArgumentBody ∧
      TakesBodies .readBracketed ']' IsTestBody := by
  constructor
  · refine takesBodies_of_reader (fun _ => rfl)
      (Text.readGroup_encode Text.hasAsciiMarks_round .top) ?_
    intro text body rest
    change Text.readParenthesized text = some (body, rest) ↔ _
    simp [Text.readParenthesized_eq_some_iff_body, and_comm]
  · refine takesBodies_of_reader (fun _ => rfl)
      (Text.readGroup_encode Text.hasAsciiMarks_square .top) ?_
    intro text body rest
    change Text.readBracketed text = some (body, rest) ↔ _
    simp [Text.readBracketed_eq_some_iff_body, and_comm]

/-- A parenthesis in a quotation, in an argument that has parentheses of its own. -/
theorem group_calls_take_bodies_quoted :
    IsArgumentBody "é(\")\")".toList ∧
      (between "a:b(".toList "é(\")\")) c)".toList).step .readParenthesized =
        some (.text (some "é(\")\")"), between "a:b(é(\")\"))".toList " c)".toList) := by
  have hread : Text.readParenthesized "é(\")\")) c)".toList =
      some ("é(\")\")".toList, " c)".toList) := by decide
  obtain ⟨-, -, hbody, -⟩ := Text.readParenthesized_eq_some_iff_body.mp hread
  exact ⟨hbody, (group_calls_take_bodies.1.some_iff _ _ _ _).mpr ⟨_, rfl, hbody, rfl⟩⟩

end SelectorPath.Cursor
