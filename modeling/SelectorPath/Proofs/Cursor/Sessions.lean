/-
Sessions on a cursor.

A session moves to the right and not beyond the end. On a boundary every call has an
answer. Inside a character the calls fail that would have to give text from there on.

* `Cursor.after`: the cursor after a session; `Cursor.run_append`: the session goes on
  from there.
* `Cursor.Onward`: what every call does to a cursor (`Cursor.onward_of_step`), and what
  becomes of the positions of a session (`Cursor.pairwise_positions`).
* `Cursor.Op.IsAligned`, `Cursor.step_on_boundary`: the calls on a boundary.
* `Cursor.step_inside`: the calls inside a character.
* `Cursor.sessions_stay_in_bounds`: all of this, for every session on a text.
-/
import SelectorPath.Proofs.Cursor.Boundaries
import SelectorPath.Proofs.Text.Bodies

namespace SelectorPath.Cursor

open Text (encode IsArgumentBody IsTestBody)

/-- The cursor after a session, unless one of its calls fails. -/
def after (c : Cursor) : List Op → Option Cursor
  | [] => some c
  | op :: ops => (c.step op).bind fun found => found.2.after ops

/-- The positions after the calls of a session. -/
def positions (answers : List (Option (Reply × Nat))) : List Nat :=
  answers.filterMap fun answer => answer.map Prod.snd

/-- A session goes on from the cursor it came to. -/
lemma run_append {c c' : Cursor} {ops : List Op} (h : c.after ops = some c') (more : List Op) :
    c.run (ops ++ more) = c.run ops ++ c'.run more := by
  induction ops generalizing c with
  | nil =>
      obtain rfl := Option.some.inj h
      rfl
  | cons op ops ih =>
      obtain ⟨⟨reply, d⟩, hstep, hafter⟩ := Option.bind_eq_some_iff.mp h
      rw [List.cons_append, run, run, hstep]
      exact congrArg _ (ih hafter)

/-! ### What every call does -/

/-- The second cursor goes over the same bytes and stands no further to the left. -/
structure Onward (c c' : Cursor) : Prop where
  bytes_eq : c'.bytes = c.bytes
  position_le : c.position ≤ c'.position

lemma Onward.refl (c : Cursor) : Onward c c := ⟨rfl, Nat.le_refl _⟩

lemma Onward.trans {c d e : Cursor} (h : Onward c d) (h' : Onward d e) : Onward c e :=
  ⟨h'.bytes_eq.trans h.bytes_eq, h.position_le.trans h'.position_le⟩

lemma onward_advance (c : Cursor) (n : Nat) : Onward c (c.advance n) :=
  ⟨rfl, Nat.le_min.mpr ⟨Nat.le_add_right _ _, c.position_le⟩⟩

/-- Reading goes on by what it finds, and stays if it finds nothing. -/
lemma onward_of_reading {c c' : Cursor} {reply : Reply} {found : Option (List UInt8 × List UInt8)}
    (h : c.reading found = some (reply, c')) : Onward c c' ∧ (reply = .text none → c' = c) := by
  cases found with
  | none =>
      obtain ⟨rfl, rfl⟩ := Prod.mk.inj (Option.some.inj h)
      exact ⟨.refl c, fun _ => rfl⟩
  | some found =>
      obtain ⟨s, -, heq⟩ := Option.map_eq_some_iff.mp h
      obtain ⟨rfl, rfl⟩ := Prod.mk.inj heq
      exact ⟨onward_advance c _, fun hnone => by simp at hnone⟩

/-- Every call moves onward, and one that finds nothing to read does not move. -/
theorem onward_of_step {c c' : Cursor} {op : Op} {reply : Reply}
    (h : c.step op = some (reply, c')) : Onward c c' ∧ (reply = .text none → c' = c) := by
  cases op with
  | peek | isAtEnd =>
      obtain ⟨rfl, rfl⟩ := Prod.mk.inj (Option.some.inj h)
      exact ⟨.refl c, fun _ => rfl⟩
  | remaining =>
      obtain ⟨s, -, heq⟩ := Option.map_eq_some_iff.mp h
      obtain ⟨rfl, rfl⟩ := Prod.mk.inj heq
      exact ⟨.refl c, fun _ => rfl⟩
  | advance n =>
      obtain ⟨rfl, rfl⟩ := Prod.mk.inj (Option.some.inj h)
      exact ⟨onward_advance c n, fun hnone => by simp at hnone⟩
  | eat b =>
      obtain ⟨rfl, rfl⟩ := Prod.mk.inj (Option.some.inj h)
      refine ⟨?_, fun hnone => by simp at hnone⟩
      rw [eat]
      split_ifs
      · exact onward_advance c 1
      · exact .refl c
  | skipBlanks =>
      obtain ⟨rfl, rfl⟩ := Prod.mk.inj (Option.some.inj h)
      exact ⟨onward_advance c _, fun hnone => by simp at hnone⟩
  | readName | readBracketed | readParenthesized => exact onward_of_reading h

/-- By induction over the calls. -/
lemma onward_of_after {c c' : Cursor} {ops : List Op} (h : c.after ops = some c') :
    Onward c c' := by
  induction ops generalizing c with
  | nil =>
      obtain rfl := Option.some.inj h
      exact .refl c
  | cons op ops ih =>
      obtain ⟨⟨reply, d⟩, hstep, hafter⟩ := Option.bind_eq_some_iff.mp h
      exact (onward_of_step hstep).1.trans (ih hafter)

/-- The positions of a session rise, and none of them is beyond the end. -/
theorem pairwise_positions (c : Cursor) (ops : List Op) :
    (c.position :: positions (c.run ops)).Pairwise (· ≤ ·) ∧
      ∀ n ∈ positions (c.run ops), n ≤ c.bytes.length := by
  induction ops generalizing c with
  | nil => simp [run, positions]
  | cons op ops ih =>
      cases hstep : c.step op with
      | none => simp [run, hstep, positions]
      | some found =>
          obtain ⟨reply, c'⟩ := found
          obtain ⟨hrise, hbound⟩ := ih c'
          obtain ⟨hbytes, hle⟩ := (onward_of_step hstep).1
          have hpositions : positions (c.run (op :: ops)) =
              c'.position :: positions (c'.run ops) := by
            simp [run, hstep, positions]
          rw [hpositions, List.pairwise_cons, ← hbytes]
          refine ⟨⟨?_, hrise⟩, ?_⟩
          · rintro n (_ | ⟨_, hn⟩)
            · exact hle
            · exact hle.trans (List.rel_of_pairwise_cons hrise hn)
          · rintro n (_ | ⟨_, hn⟩)
            · exact c'.position_le
            · exact hbound n hn

/-! ### On a boundary -/

/-- The call moves over whole characters, on a boundary. The others count bytes. -/
def Op.IsAligned : Op → Prop
  | .advance _ => False
  | .eat b => b < 0x80
  | _ => True

section

variable {text : String} {left right : List Char} (htext : text.toList = left ++ right)

include htext

/-- What a reader finds in the bytes of characters is the text of some of them. -/
lemma reading_on_boundary {found : Option (List Char × List Char)}
    (hfound : ∀ body rest, found = some (body, rest) → rest <:+ right) :
    ∃ reply c', (between left right).reading
        (found.map fun found => (encode found.1, encode found.2)) = some (reply, c') ∧
      c'.IsOnBoundary text := by
  cases found with
  | none => exact ⟨_, _, rfl, isOnBoundary_between htext⟩
  | some found =>
      obtain ⟨body, rest⟩ := found
      obtain ⟨part, rfl⟩ := hfound body rest rfl
      refine ⟨_, _, reading_between left part rest body, isOnBoundary_between ?_⟩
      rw [htext, List.append_assoc]

/-- On a boundary a group is decoded, since its marks are boundaries too. -/
lemma readGroup_on_boundary {g : Grouping} (hg : Text.HasAsciiMarks g) :
    ∃ reply c', (between left right).reading
        (Text.readGroup g .top (between left right).rest) = some (reply, c') ∧
      c'.IsOnBoundary text := by
  rw [rest_between, Text.readGroup_encode hg]
  refine reading_on_boundary htext fun body rest hread => ?_
  obtain ⟨a, -, rfl⟩ := Text.append_of_readGroup hread
  exact ⟨body ++ [a], by simp⟩

/-- An ASCII byte in front of the cursor is a character. -/
lemma eat_on_boundary {b : UInt8} (hb : b < 0x80) :
    (((between left right).eat b).getD (between left right)).IsOnBoundary text := by
  rw [eat]
  split_ifs with hpeek
  · cases right with
    | nil => simp [peek] at hpeek
    | cons ch right =>
        rw [peek, rest_between] at hpeek
        have hmem := Text.mem_encode_of_head? hpeek
        have hbyte : Symbol.code b < 128 := UInt8.lt_iff_toNat_lt.mp hb
        have hascii : ch.toNat < 128 := by
          rcases Text.code_of_mem_encode hmem with heq | ⟨hge, -⟩
          · exact heq.symm.trans_lt hbyte
          · omega
        have hmove : (between left (ch :: right)).advance 1 = between (left ++ [ch]) right := by
          refine eq_of_position ?_ ?_
          · simp [advance]
          · simp [advance, Text.utf8Size_ascii hascii]
        rw [Option.getD_some, hmove]
        exact isOnBoundary_between (by simp [htext])
  · exact isOnBoundary_between htext

/-- On a boundary every call has an answer, and one that moves over whole characters
leaves the cursor on a boundary. -/
theorem step_on_boundary (op : Op) :
    ∃ reply c', (between left right).step op = some (reply, c') ∧
      (op.IsAligned → c'.IsOnBoundary text) := by
  cases op with
  | peek | isAtEnd => exact ⟨_, _, rfl, fun _ => isOnBoundary_between htext⟩
  | remaining =>
      refine ⟨.text (some (String.ofList right)), between left right, ?_,
        fun _ => isOnBoundary_between htext⟩
      rw [step, rest_between, decode?_encode]
      rfl
  -- a step of any width may end inside a character, and is not aligned
  | advance n => exact ⟨_, _, rfl, False.elim⟩
  | eat b => exact ⟨_, _, rfl, eat_on_boundary htext⟩
  | skipBlanks =>
      refine ⟨_, _, rfl, fun _ => ?_⟩
      -- blanks are ASCII, so that the bytes skipped are those of whole characters
      have hparts : right = right.takeWhile Symbol.isBlank ++ Text.skipBlanks right :=
        List.takeWhile_append_dropWhile.symm
      rw [skipBlanks, rest_between, Text.skipBlanks_encode]
      nth_rewrite 1 [hparts]
      rw [before_between]
      refine isOnBoundary_between ?_
      rw [htext, List.append_assoc, ← hparts]
  | readName =>
      obtain ⟨reply, c', hread, hon⟩ := reading_on_boundary htext
        fun name rest hread => ⟨name, Text.append_of_readName hread⟩
      rw [← Text.readName_encode, ← rest_between left] at hread
      exact ⟨reply, c', hread, fun _ => hon⟩
  | readBracketed =>
      obtain ⟨reply, c', hread, hon⟩ := readGroup_on_boundary htext Text.hasAsciiMarks_square
      exact ⟨reply, c', hread, fun _ => hon⟩
  | readParenthesized =>
      obtain ⟨reply, c', hread, hon⟩ := readGroup_on_boundary htext Text.hasAsciiMarks_round
      exact ⟨reply, c', hread, fun _ => hon⟩

end

/-! ### Inside a character -/

/-- There is a body in front of a closing mark. -/
def FindsGroup (c : Cursor) (closing : Char) (IsBody : List UInt8 → Prop) : Prop :=
  ∃ body a rest, IsBody body ∧ Symbol.is closing a = true ∧ c.rest = body ++ a :: rest

section

variable {c : Cursor} {b : UInt8} {tail : List UInt8} (hrest : c.rest = b :: tail)
  (hb : ¬ b.IsUTF8FirstByte)

include hrest hb

/-- What begins in front of the cursor is no text. -/
lemma reading_eq_none {part after : List UInt8} (hpart : part <+: c.rest) (hne : part ≠ []) :
    c.reading (some (part, after)) = none := by
  obtain ⟨b', part', rfl⟩ := List.exists_cons_of_ne_nil hne
  rw [hrest, List.cons_prefix_cons] at hpart
  obtain ⟨rfl, -⟩ := hpart
  rw [reading, decode?_eq_none hb]
  rfl

/-- A group is met with a failure. -/
lemma reading_eq_none_iff {closing : Char} (hascii : closing.toNat < 128)
    {IsBody : List UInt8 → Prop} {found : Option (List UInt8 × List UInt8)}
    (hfound : ∀ body rest, found = some (body, rest) ↔
      ∃ a, Symbol.is closing a = true ∧ IsBody body ∧ c.rest = body ++ a :: rest) :
    c.reading found = none ↔ c.FindsGroup closing IsBody := by
  constructor
  · intro h
    cases found with
    | none => simp [reading] at h
    | some found =>
        obtain ⟨body, rest⟩ := found
        obtain ⟨a, ha, hbody, heq⟩ := (hfound body rest).mp rfl
        exact ⟨body, a, rest, hbody, ha, heq⟩
  · rintro ⟨body, a, rest, hbody, ha, heq⟩
    rw [(hfound body rest).mpr ⟨a, ha, hbody, heq⟩]
    refine reading_eq_none hrest hb (heq ▸ List.prefix_append _ _) ?_
    rintro rfl
    -- the byte in front of the cursor would be the closing mark, which is ASCII
    obtain ⟨rfl, -⟩ := List.cons.inj (hrest.symm.trans heq)
    have hcode := code_of_not_isUTF8FirstByte hb
    have hmark : Symbol.code b = closing.toNat := beq_iff_eq.mp ha
    omega

end

/-- Inside a character a call fails that takes the rest or a name, and one that takes a
group fails if there is a group. -/
theorem step_inside {c : Cursor} {text : String} (hover : c.IsOver text)
    (h : ¬ c.IsOnBoundary text) :
    c.step .remaining = none ∧ c.step .readName = none ∧
      (c.step .readBracketed = none ↔ c.FindsGroup ']' IsTestBody) ∧
      (c.step .readParenthesized = none ↔ c.FindsGroup ')' IsArgumentBody) := by
  obtain ⟨b, tail, hrest, hb⟩ := exists_rest_of_not_isOnBoundary hover h
  have hname : Symbol.isName b = true := by
    simp [Symbol.isName, code_of_not_isUTF8FirstByte hb]
  refine ⟨?_, ?_, ?_, ?_⟩
  · rw [step, hrest, decode?_eq_none hb]
    rfl
  · have hread : Text.readName c.rest =
        some (c.rest.takeWhile Symbol.isName, c.rest.dropWhile Symbol.isName) := by
      rw [Text.readName, hrest, List.takeWhile_cons_of_pos hname]
    rw [step, hread]
    refine reading_eq_none hrest hb (List.takeWhile_prefix _) ?_
    rw [hrest, List.takeWhile_cons_of_pos hname]
    exact List.cons_ne_nil _ _
  · exact reading_eq_none_iff hrest hb (by decide)
      fun body rest => Text.readBracketed_eq_some_iff_body
  · exact reading_eq_none_iff hrest hb (by decide)
      fun body rest => Text.readParenthesized_eq_some_iff_body

/-- A session moves onward and not beyond the end, and a call that finds nothing to read
does not move. On a boundary no call fails, and only those that count bytes can leave the
cursor inside a character. There the calls fail that would have to give text. -/
theorem sessions_stay_in_bounds (text : String) (ops : List Op) :
    (positions ((ofText text).run ops)).Pairwise (· ≤ ·) ∧
      (∀ n ∈ positions ((ofText text).run ops), n ≤ text.utf8ByteSize) ∧
      ∀ c, (ofText text).after ops = some c → ∀ op,
        (ofText text).run (ops ++ [op]) = (ofText text).run ops ++
          [(c.step op).map fun found => (found.1, found.2.position)] ∧
        (∀ reply c', c.step op = some (reply, c') →
          c.position ≤ c'.position ∧ c'.position ≤ text.utf8ByteSize ∧
            (reply = .text none → c'.position = c.position)) ∧
        (c.IsOnBoundary text → ∃ reply c', c.step op = some (reply, c') ∧
          (op.IsAligned → c'.IsOnBoundary text)) ∧
        (¬ c.IsOnBoundary text →
          c.step .remaining = none ∧ c.step .readName = none ∧
            (c.step .readBracketed = none ↔ c.FindsGroup ']' IsTestBody) ∧
            (c.step .readParenthesized = none ↔ c.FindsGroup ')' IsArgumentBody)) := by
  have hstart : (ofText text).IsOver text := rfl
  obtain ⟨hrise, hbound⟩ := pairwise_positions (ofText text) ops
  rw [length_of_isOver hstart] at hbound
  refine ⟨hrise.of_cons, hbound, fun c hafter op => ?_⟩
  have hover : c.IsOver text := (onward_of_after hafter).bytes_eq
  refine ⟨?_, fun reply c' hstep => ?_, fun hon => ?_, step_inside hover⟩
  · rw [run_append hafter, run]
    cases c.step op with
    | none => rfl
    | some found => rfl
  · obtain ⟨⟨hbytes, hle⟩, hnone⟩ := onward_of_step hstep
    refine ⟨hle, ?_, fun hreply => by rw [hnone hreply]⟩
    rw [← length_of_isOver hover, ← hbytes]
    exact c'.position_le
  · obtain ⟨left, right, htext, rfl⟩ := (isOnBoundary_iff hover).mp hon
    exact step_on_boundary htext op

/-- A bracket behind a character of two bytes, read from the first and from the second of
them. -/
theorem sessions_stay_in_bounds_divided :
    (ofText "é]").after [.advance 1] = some ((ofText "é]").advance 1) ∧
      ¬ ((ofText "é]").advance 1).IsOnBoundary "é]" ∧
      ((ofText "é]").advance 1).step .readBracketed = none ∧
      (∃ reply c', (ofText "é]").step .readBracketed = some (reply, c') ∧
        c'.IsOnBoundary "é]") := by
  obtain ⟨-, -, hfirst⟩ := sessions_stay_in_bounds "é]" []
  obtain ⟨-, -, hsecond⟩ := sessions_stay_in_bounds "é]" [.advance 1]
  have hon : (ofText "é]").IsOnBoundary "é]" := by
    rw [ofText_eq]
    exact isOnBoundary_between rfl
  have hoff : ¬ ((ofText "é]").advance 1).IsOnBoundary "é]" := by
    have hcut : ¬ (Text.splitAt? 1 ['é', ']']).isSome := by decide
    rw [ofText_eq]
    exact mt Text.isSome_splitAt?_iff.mpr hcut
  have hfound : ((ofText "é]").advance 1).FindsGroup ']' IsTestBody := by
    rw [ofText_eq]
    have hbody : IsTestBody [(0xA9 : UInt8)] := ⟨by decide, List.forall_mem_singleton.mpr rfl⟩
    exact ⟨[0xA9], 0x5D, [], hbody, by decide, by decide⟩
  obtain ⟨-, -, hfails, -⟩ := (hsecond _ rfl .peek).2.2.2 hoff
  obtain ⟨reply, c', hstep, hkeeps⟩ := (hfirst _ rfl .readBracketed).2.2.1 hon
  exact ⟨rfl, hoff, hfails.mpr hfound, reply, c', hstep, hkeeps trivial⟩

end SelectorPath.Cursor
