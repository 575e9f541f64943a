import Lox.Grammar.Program
import Lox.Proofs.Grammar.Statement

set_option autoImplicit false

/-! No two nodes of a program have the same number, whatever tokens it was read from; and programs that are
read from a text are regular. -/

namespace Lox.Grammar

def rulesAt (depth : Nat) : Rules :=
  ⟨depth, expression depth, statement depth, declaration depth⟩

theorem rulesAt_promising (told : Prop) : ∀ depth : Nat, (rulesAt depth).Promising told
  | 0 =>
      ⟨fun _ _ _ spelled same => ⟨spelled, Nat.le_of_eq same.symm⟩,
        fun _ _ spelled same => ⟨spelled, Nat.le_of_eq same.symm⟩,
        fun _ _ spelled same => ⟨spelled, Nat.le_of_eq same.symm⟩⟩
  | depth + 1 =>
      ⟨fun _ min => Rules.expressionAt_promises (rulesAt_promising told depth) min,
        fun _ => Rules.statementRule_promises (rulesAt_promising told depth),
        fun _ => Rules.declarationRule_promises (rulesAt_promising told depth)⟩

theorem programRound_promises {told : Prop} {start : Nat} (depth middle : Nat) (found : List Stmt)
    (fit : Fits.stmts told start middle found.reverse) :
    Promises told middle (programRound depth found)
      (Rule.Kept (fun last found => Fits.stmts told start last found.reverse) (Fits.stmts told start)) := by
  unfold programRound
  refine Rule.atEnd_promises.bind_still fun atEnd _ => ?_
  split
  · exact Promises.pure fit
  · refine ((rulesAt_promising told depth).declaration _).bind fun last next up read => ?_
    cases next with
    | none => exact Promises.pure (fit.widen up)
    | some s =>
        have more := Fits.stmts_concat fit (read s rfl)
        rw [← List.reverse_cons] at more
        exact Promises.pure more

theorem program_promises (told : Prop) (start : Nat) : Promises told start program (Fits.stmts told start) :=
  fun cursor spelled same => Rule.iterate_promises (programRound_promises cursor.depth)
    cursor.depth start [] (Fits.leaf trivial (Nat.le_refl _)) cursor spelled same

theorem Cursor.ofTokens_spelled {tokens : List Token} (spelled : ∀ token ∈ tokens, token.Spelled)
    (firstId : NodeId) : (Cursor.ofTokens tokens firstId).Spelled := by
  constructor
  · intro token member
    exact spelled token ((List.takeWhile_sublist _).mem member)
  · unfold Cursor.ofTokens
    cases found : tokens.find? (·.isEnd) with
    | none => exact Token.spelled_of_other nofun nofun
    | some token => exact spelled token (List.mem_of_find?_eq_some found)

/-- The nodes of what is read are numbered from the given number up to the next free one, and it is regular
if its tokens are told to be spelled. -/
theorem parse_fits (told : Prop) {tokens : List Token}
    (spelled : told → ∀ token ∈ tokens, token.Spelled) (firstId : NodeId) :
    Fits.stmts told firstId (parse tokens firstId).nextId (parse tokens firstId).statements := by
  have kept := program_promises told firstId _
    (fun isTold => Cursor.ofTokens_spelled (spelled isTold) firstId) rfl
  unfold parse Cursor.parse
  cases result : program (Cursor.ofTokens tokens firstId) with
  | ok statements cursor =>
      rw [result] at kept
      exact kept.2.2
  | error failure cursor =>
      rw [result] at kept
      cases failure with
      | error e => exact Fits.leaf trivial kept.2
      | exhausted => exact Fits.leaf trivial kept.2

/-- What is read from spelled tokens is regular, and its nodes are numbered from the given number up to
the next free one. -/
theorem parse_fit {tokens : List Token} (spelled : ∀ token ∈ tokens, token.Spelled)
    (firstId : NodeId) :
    Fit.stmts firstId (parse tokens firstId).nextId (parse tokens firstId).statements := by
  obtain ⟨regular, up, numbered⟩ := parse_fits True (fun _ => spelled) firstId
  exact ⟨regular trivial, up, numbered⟩

/-- What a text says, whether or not errors were met in it. -/
def readText (base : Nat) (text : List Char) (firstId : NodeId) : Parse :=
  parse (Token.ofText base text) firstId

theorem readText_fit (base : Nat) (text : List Char) (firstId : NodeId) :
    Fit.stmts firstId (readText base text firstId).nextId
      (readText base text firstId).statements :=
  parse_fit (Token.ofText_spelled base text) firstId

/-- Whatever tokens are read, and whether or not errors were met in them, no two nodes of the program have
the same number; all numbers lie between the given one and the next free one, which never lies below. -/
theorem parse_numbers_nodes (tokens : List Token) (firstId : NodeId) :
    (Nodes.stmts (parse tokens firstId).statements).Nodup ∧
      (∀ id ∈ Nodes.stmts (parse tokens firstId).statements,
        firstId ≤ id ∧ id < (parse tokens firstId).nextId) ∧
      firstId ≤ (parse tokens firstId).nextId := by
  have fits : Fits.stmts False firstId (parse tokens firstId).nextId (parse tokens firstId).statements :=
    parse_fits False False.elim firstId
  exact ⟨fits.numbered.nodup, fun id member => fits.numbered.bounds member, fits.up⟩

/-- The comparisons of a switch are numbered from the last arm outwards, and the numbers of a default arm
and of a statement that was given up remain unused. -/
example :
    Nodes.stmts (readText 0 "switch (a) { b => {} _ => {} c => {} } a + ; d = e;".toList
      5).statements = [6, 5, 11, 7, 10, 9, 14, 13] := by
  decide +kernel

end Lox.Grammar
