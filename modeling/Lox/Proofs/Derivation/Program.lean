import Lox.Proofs.Derivation.Declaration

set_option autoImplicit false

/-! Programs. Reading accepts a program exactly when there is a derivation of it, and then its statements
are the image of the derivation. The induction is on the depth that is allowed for the tokens left. -/

namespace Lox.Grammar

open Derives Accepts

variable {stop : Token}

theorem rulesAt_speaks (ends : stop.isEnd = true) :
    ∀ {deep depth : Nat}, deep ≤ depth → (rulesAt depth).Speaks stop deep
  | 0, depth, _ =>
      { growing := rulesAt_growing depth
        ends
        abreast := rulesAt_abreast 0 (Nat.zero_le _) (Nat.zero_le _)
        expression := fun impossible => absurd impossible (Nat.not_succ_le_zero _)
        statement := fun impossible => absurd impossible (Nat.not_succ_le_zero _)
        declaration := fun impossible => absurd impossible (Nat.not_succ_le_zero _) }
  | deep + 1, depth + 1, enough => by
      have speaks := rulesAt_speaks ends (Nat.le_of_succ_le_succ enough)
      refine ⟨rulesAt_growing _, ends, rulesAt_abreast _ enough enough, ?_, ?_, ?_⟩
      · intro p q e fits
        have same : expression (depth + 1) .lowest (p.cursor stop) =
            parseExpression .lowest (p.cursor stop) :=
          expression_eq .lowest ends (Nat.le_trans fits enough) (Place.enough stop p)
        exact Iff.of_eq (congrArg (· = _) same)
      · intro p q s fits
        exact speaks.statementRule_iff (Nat.le_of_succ_le_succ fits)
      · intro p q found fits
        exact speaks.declarationRule_iff (Nat.le_of_succ_le_succ fits)

theorem Accepts.atEnd_iff {α : Type} {p q : Place} {a : α} {closed more : Rule α} :
    Accepts stop (do
        if ← Rule.atEnd then closed else more) p a q ↔
      (p.tokens = [] ∧ Accepts stop closed p a q) ∨
        (p.tokens ≠ [] ∧ Accepts stop more p a q) := by
  unfold Accepts
  rw [Outcome.bind_of_ok
    (rfl : Rule.atEnd (p.cursor stop) = .ok (p.cursor stop).pending.isEmpty (p.cursor stop))]
  by_cases none : p.tokens = []
  · simp [Place.cursor, none]
  · simp [Place.cursor, none]

theorem programRound_iff (ends : stop.isEnd = true) {depth : Nat} {p : Place}
    (fits : 3 * p.tokens.length + 3 ≤ depth) (found : List Stmt)
    (outcome : Rule.Round (List Stmt) (List Stmt)) (q : Place) :
    Accepts stop (programRound depth found) p outcome q ↔
      (p.tokens = [] ∧ outcome = .finish found.reverse ∧ q = p) ∨
        ∃ next, outcome = .again next ∧ Rules.Speaks.DeclarationStep stop found p next q := by
  have speaks := rulesAt_speaks ends (Nat.le_refl depth)
  have : Grows (declaration depth) := (rulesAt_growing depth).declaration
  have reads {found : Option Stmt} {q : Place} :
      Accepts stop (declaration depth) p found q ↔
        ∃ s, found = some s ∧ Declaration stop p s q := speaks.declaration fits
  rw [programRound_eq, atEnd_iff]
  constructor
  · rintro (⟨none, done⟩ | ⟨-, done⟩)
    · exact .inl ⟨none, pure_iff.mp done⟩
    · obtain ⟨some, r, declared, done⟩ := bind_iff.mp done
      obtain ⟨s, rfl, derived⟩ := reads.mp declared
      obtain ⟨rfl, rfl⟩ := pure_iff.mp done
      exact .inr ⟨_, rfl, s, rfl, derived⟩
  · rintro (⟨none, rfl, rfl⟩ | ⟨next, rfl, s, rfl, derived⟩)
    · exact .inl ⟨none, pure_iff.mpr ⟨rfl, rfl⟩⟩
    · exact .inr ⟨List.length_pos_iff.mp (derived.pos ends), bind_iff.mpr ⟨_, _,
        reads.mpr ⟨s, rfl, derived⟩, pure_iff.mpr ⟨rfl, rfl⟩⟩⟩

theorem program_iff (ends : stop.isEnd = true) {p q : Place} {ss : List Stmt} :
    Accepts stop program p ss q ↔ Declarations stop p ss q ∧ q.tokens = [] := by
  have enough : 3 * p.tokens.length + 3 ≤ (p.cursor stop).depth := by
    change _ ≤ 4 * (p.tokens.length + 1)
    omega
  unfold Accepts program
  generalize (p.cursor stop).depth = depth at enough ⊢
  have speaks := rulesAt_speaks ends (Nat.le_refl depth)
  have shorter (found : List Stmt) (p : Place) (next : List Stmt) (q : Place)
      (fits : 3 * p.tokens.length + 3 ≤ depth)
      (step : Rules.Speaks.DeclarationStep stop found p next q) :
      q.tokens.length < p.tokens.length ∧ 3 * q.tokens.length + 3 ≤ depth := by
    obtain ⟨s, -, derived⟩ := step
    have fewer := speaks.declaration_shorter fits derived
    exact ⟨fewer, by omega⟩
  refine (steps_iff (fun found p outcome q fits => programRound_iff ends fits found outcome q) shorter
    enough (by omega)).trans ?_
  constructor
  · rintro ⟨last, steps, none, rfl⟩
    obtain ⟨ss, derived, same⟩ := Rules.Speaks.declarations_of_steps steps
    rw [same]
    exact ⟨derived, none⟩
  · rintro ⟨derived, none⟩
    refine ⟨_, Rules.Speaks.steps_of_declarations derived [], none, ?_⟩
    rw [List.append_nil, List.reverse_reverse]

theorem ofTokens_eq (body : List Token) (eof : Token) (firstId : NodeId)
    (single : ∀ token ∈ body, token.isEnd = false) (ends : eof.isEnd = true) :
    Cursor.ofTokens (body ++ [eof]) firstId = Place.cursor eof ⟨body, firstId⟩ := by
  have before : (body ++ [eof]).takeWhile (!·.isEnd) = body := by
    rw [List.takeWhile_append_of_pos (by simpa using single), List.takeWhile_cons_of_neg (by simp [ends]),
      List.append_nil]
  have found : (body ++ [eof]).find? (·.isEnd) = some eof := by
    rw [List.find?_append, List.find?_eq_none.mpr (by simpa using single)]
    simp [ends]
  unfold Cursor.ofTokens Place.cursor
  rw [before, found]
  rfl

theorem program_not_exhausted (ends : stop.isEnd = true) (p : Place) (after : Cursor) :
    program (p.cursor stop) ≠ .error .exhausted after :=
  Reading.self.not_exhausted (program_abreast p.tokens.length) ends rfl after

theorem errors_of_accepts {p q : Place} {ss : List Stmt} (done : Accepts stop program p ss q) :
    (p.cursor stop).parse = ⟨ss, [], none, q.nextId⟩ := by
  unfold Cursor.parse
  rw [show program (p.cursor stop) = _ from done]
  rfl

theorem accepts_of_errors (ends : stop.isEnd = true) {p : Place}
    (none : (p.cursor stop).parse.errors = []) : ∃ ss q, Accepts stop program p ss q := by
  have kept := program_grows.keeps (p.cursor stop)
  unfold Cursor.parse at none
  cases done : program (p.cursor stop) with
  | ok ss after =>
      rw [done] at none kept
      obtain ⟨pending, stop', nextId, recorded⟩ := after
      have empty : recorded = [] := List.reverse_eq_nil_iff.mp (List.append_eq_nil_iff.mp none).1
      cases empty
      cases kept.1
      exact ⟨ss, ⟨pending, nextId⟩, done⟩
  | error failure after =>
      rw [done] at none
      cases failure with
      | error e => exact absurd (List.append_eq_nil_iff.mp none).2 (List.cons_ne_nil _ _)
      | exhausted => exact absurd done (program_not_exhausted ends p after)

/-- A row of tokens is read without an error exactly when it is derived as a program, and what is read
is the image of the derivation. -/
theorem parse_iff_derives (body : List Token) (eof : Token) (firstId : NodeId)
    (single : ∀ token ∈ body, token.isEnd = false) (ends : eof.isEnd = true) :
    ((parse (body ++ [eof]) firstId).errors = [] ↔
        ∃ statements nextId, Derives.Program eof body firstId statements nextId) ∧
      ∀ statements nextId, Derives.Program eof body firstId statements nextId →
        (parse (body ++ [eof]) firstId).statements = statements ∧
          (parse (body ++ [eof]) firstId).nextId = nextId := by
  unfold parse
  rw [ofTokens_eq body eof firstId single ends]
  have accepted {statements : List Stmt} {nextId : NodeId}
      (derived : Derives.Program eof body firstId statements nextId) :=
    errors_of_accepts ((program_iff ends).mpr ⟨derived, rfl⟩)
  refine ⟨⟨fun none => ?_, fun ⟨statements, nextId, derived⟩ => ?_⟩, fun statements nextId derived => ?_⟩
  · obtain ⟨ss, q, done⟩ := accepts_of_errors ends none
    obtain ⟨derived, finished⟩ := (program_iff ends).mp done
    obtain ⟨tokens, nextId⟩ := q
    cases finished
    exact ⟨ss, nextId, derived⟩
  · rw [accepted derived]
    rfl
  · rw [accepted derived]
    exact ⟨rfl, rfl⟩

/-- `for (; a; ) print b;` -/
theorem parse_iff_derives_for_loop :
    let name (text : String) : Token := ⟨.identifier, text, 0⟩
    let semicolon : Token := ⟨.symbol .semicolon, ";", 0⟩
    let body := [⟨.keyword .forWord, "for", 0⟩, ⟨.symbol .leftParen, "(", 0⟩, semicolon, name "a",
      semicolon, ⟨.symbol .rightParen, ")", 0⟩, ⟨.keyword .printWord, "print", 0⟩, name "b", semicolon]
    (∀ token ∈ body, token.isEnd = false) ∧ (Token.atEnd 0).isEnd = true ∧
      (parse (body ++ [Token.atEnd 0]) 0).errors = [] ∧
        (parse (body ++ [Token.atEnd 0]) 0).statements =
          [.loop (.variable 0 (name "a")) (.block [.print (.variable 1 (name "b"))])] := by
  intro name semicolon body
  have single : ∀ token ∈ body, token.isEnd = false := by decide
  have passes {terminal : Terminal} {token : Token} {rest : List Token} {id : NodeId}
      (found : token.terminal? = some terminal) :
      Passes terminal ⟨token :: rest, id⟩ token ⟨rest, id⟩ := ⟨found, rfl⟩
  have first : LoopStart (Token.atEnd 0) ⟨body.drop 2, 0⟩ none ⟨body.drop 3, 0⟩ :=
    .absent (passes rfl)
  have condition : Expression (Token.atEnd 0) ⟨body.drop 3, 0⟩ (.variable 0 (name "a"))
      ⟨body.drop 4, 1⟩ := rfl
  have value : Expression (Token.atEnd 0) ⟨body.drop 7, 1⟩ (.variable 1 (name "b"))
      ⟨body.drop 8, 2⟩ := rfl
  have derived : Derives.Program (Token.atEnd 0) body 0
      [.loop (.variable 0 (name "a")) (.block [.print (.variable 1 (name "b"))])] 2 := by
    refine .cons (.statement ?_) (.nil _)
    exact .forLoop (passes rfl) (passes rfl) first (.present condition) (passes rfl) (.absent _)
      (passes rfl) (.print (passes rfl) value (passes rfl))
  have reads := parse_iff_derives body (Token.atEnd 0) 0 single rfl
  exact ⟨single, rfl, reads.1.mpr ⟨_, _, derived⟩, (reads.2 _ _ derived).1⟩

end Lox.Grammar
