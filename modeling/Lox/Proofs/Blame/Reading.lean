import Lox.Proofs.Blame.Code
import Lox.Proofs.Session.Exit
import Lox.Proofs.Twin.Program

set_option autoImplicit false

/-! A source that is read and resolved beside itself. Whatever is reported of it is at one of its tokens, and
a program that is accepted is drawn from them. -/

namespace Lox

/-- One reading of a row of tokens, beside itself. -/
def Reading.alone (tokens : List Token) (first : NodeId) : Reading where
  pair t u := t = u ∧ t ∈ tokens
  same _ _ pair := ⟨congrArg Token.kind pair.1, congrArg Token.lexeme pair.1⟩
  first := first
  second := first

variable {tokens : List Token} {first : NodeId}

theorem Reading.eq_of_counted {id other : NodeId}
    (counted : (Reading.alone tokens first).counted id other) : id = other := by
  obtain ⟨count, rfl, rfl⟩ := counted
  rfl

namespace Grammar

theorem parse_alone (ends : ∃ token ∈ tokens, token.isEnd = true) (first : NodeId) :
    ParsesAlike (Reading.alone tokens first) (parse tokens first) (parse tokens first) := by
  have pairs : List.Forall₂ (Reading.alone tokens first).pair tokens tokens :=
    List.forall₂_same.mpr fun t member => ⟨rfl, member⟩
  exact (Cursor.like_ofTokens pairs ends).parse

/-- Syntax errors are at tokens that were read. -/
theorem token_mem_of_parse (ends : ∃ token ∈ tokens, token.isEnd = true) {e : SyntaxError}
    (member : e ∈ (parse tokens first).errors) : e.token ∈ tokens := by
  have alike := parse_alone ends first
  rcases List.mem_append.mp member with recorded | fatal
  · exact (List.forall₂_same.mp alike.recorded e recorded).2.2
  · have same := alike.fatal
    rw [Option.mem_toList.mp fatal] at same
    cases same with
    | some like => exact like.2.2

end Grammar

/-- What one program is given, beside itself. -/
def Allotment.alone (bindings : Bindings) (first : NodeId) (plain : ∀ t ∈ tokens, t.Plain) :
    Allotment where
  reading := Reading.alone tokens first
  base := bindings.nextSlot
  other := bindings.nextSlot
  plain _ _ pair := plain _ pair.2

theorem Allotment.settled_le_drawn {bindings : Bindings} (plain : ∀ t ∈ tokens, t.Plain)
    (after : Bindings) :
    ((Allotment.alone bindings first plain).settled after).Le (.drawn (· ∈ tokens) after) where
  token _ _ pair := pair
  named _ _ _ _ both := ⟨Reading.eq_of_counted both.1, both.2.1, both.2.1 ▸ both.2.2⟩
  node _ _ := Reading.eq_of_counted
  hidden _ _ both := ⟨Reading.eq_of_counted both.1, both.2⟩

/-- A program is refused at one of its tokens, or accepted as one that is drawn from them. -/
theorem resolve_alone (plain : ∀ t ∈ tokens, t.Plain) {bindings : Bindings}
    (below : bindings.Below first) {program : List Stmt}
    (alike : Stmts.Like (Reading.alone tokens first).likeness program program) :
    (∀ e, (resolve bindings program).1 = some e → e.token ∈ tokens) ∧
      ((resolve bindings program).1 = none →
        Stmts.Like (.drawn (· ∈ tokens) (resolve bindings program).2) program program) := by
  have fresh : Bindings.Twin (Allotment.alone bindings first plain) 0 bindings bindings :=
    .fresh rfl rfl below below
  have outcomes := Resolve.resolve_outcomes alike fresh
  generalize resolve bindings program = result at outcomes ⊢
  cases outcomes with
  | accepted le twin settled =>
    exact ⟨nofun, fun _ => settled.mono (Allotment.settled_le_drawn plain _)⟩
  | refused le twin faults same =>
    refine ⟨fun e isError => ?_, nofun⟩
    cases isError
    exact same.2

/-- No token of a source is spelled like a hidden variable. -/
theorem Token.ofText_plain (base : Nat) (text : List Char) : ∀ t ∈ Token.ofText base text, t.Plain := by
  intro t member
  have twins : List.Forall₂ (Token.Twin Eq) (Token.ofText base text) (Token.ofText base text) :=
    Token.ofText_twin _ fun _ _ => rfl
  exact (List.forall₂_same.mp twins t member).plain

namespace Session

variable (s : Session) (source : String)

theorem tokens_end : ∃ token ∈ s.tokens source, token.isEnd = true :=
  Token.ofText_ends _ _

theorem tokens_plain : ∀ t ∈ s.tokens source, t.Plain :=
  Token.ofText_plain _ _

theorem resolve_parsed (below : s.bindings.Below s.nextNode) :
    (∀ e, (Lox.resolve s.bindings (s.parsed source).statements).1 = some e →
        e.token ∈ s.tokens source) ∧
      ((Lox.resolve s.bindings (s.parsed source).statements).1 = none →
        Stmts.Like (.drawn (· ∈ s.tokens source)
            (Lox.resolve s.bindings (s.parsed source).statements).2)
          (s.parsed source).statements (s.parsed source).statements) :=
  resolve_alone (s.tokens_plain source) below
    (Grammar.parse_alone (s.tokens_end source) s.nextNode).statements

end Session
end Lox
