import Lox.Proofs.Derivation.Persist

set_option autoImplicit false

/-! Programs one after the other. A declaration that has been read is read the same if more declarations
follow, since no declaration begins with `else`; so reading two programs in one row of tokens yields the
declarations of the first and then those of the second. -/

namespace Lox.Grammar

theorem Rules.operand_refuses (rules : Rules) : Refuses rules.operand := by
  constructor
  intro c ends none e after done
  have kind : c.next.kind = .endOfInput := by
    unfold Cursor.next
    rw [none]
    unfold Token.isEnd at ends
    split at ends
    · assumption
    · cases ends
  unfold operand at done
  rw [peek_bind, kind] at done
  cases done

theorem Rules.statementRule_refuses (rules : Rules) [rules.Needing] : Refuses rules.statementRule := by
  constructor
  intro c ends none s after done
  have next : c.next.terminal? = Option.none := by
    unfold Cursor.next
    rw [none]
    refine Option.eq_none_iff_forall_ne_some.mpr fun terminal found => ?_
    have isToken := Token.isEnd_of_terminal found
    exact absurd (ends.symm.trans isToken) nofun
  unfold statementRule at done
  rw [peek_bind, next] at done
  exact Refuses.refuses ends none s after done

theorem kind_of_keyword {token : Token} {keyword : Keyword}
    (found : token.terminal? = some (.keyword keyword)) : token.kind = .keyword keyword := by
  unfold Token.terminal? at found
  split at found <;> simp_all

/-- The word `fun` begins an operand only before a parenthesis. -/
theorem Rules.lone_operand (rules : Rules) [rules.Needing] {stop token : Token} {id : NodeId}
    (ends : stop.isEnd = true) (isFunction : token.kind = .keyword .funWord) (e : Expr)
    (after : Cursor) : rules.operand (Place.cursor stop ⟨[token], id⟩) ≠ .ok e after := by
  intro done
  unfold operand at done
  rw [peek_bind, show (Place.cursor stop ⟨[token], id⟩).next = token from rfl, isFunction] at done
  dsimp only at done
  rw [advance_bind] at done
  obtain ⟨decl, last, body, -⟩ := Outcome.ok_of_bind done
  exact Refuses.refuses ends rfl decl last body

instance rulesAt_needing : ∀ depth : Nat, (rulesAt depth).Needing
  | 0 => ⟨fun _ => ⟨nofun⟩, ⟨nofun⟩, nofun⟩
  | depth + 1 => by
    have := rulesAt_needing depth
    have operand := (rulesAt depth).operand_refuses
    refine ⟨fun min => ?_, (rulesAt depth).statementRule_refuses, ?_⟩
    · change Refuses ((rulesAt depth).expressionAt min)
      unfold Rules.expressionAt
      infer_instance
    · intro stop token id s q ends isFunction done
      have passes : Derives.Passes (.keyword .funWord) ⟨[token], id⟩ token ⟨[], id⟩ :=
        ⟨isFunction, rfl⟩
      have stated := (Rules.statementRule_of_passes passes).symm.trans done
      obtain ⟨value, middle, read, -⟩ := Outcome.ok_of_bind stated
      match depth with
      | 0 => cases read
      | depth + 1 =>
        have := rulesAt_needing depth
        obtain ⟨left, rest, first, -⟩ := Outcome.ok_of_bind read
        exact (rulesAt depth).lone_operand ends (kind_of_keyword isFunction) left rest first

/-- A deeper reading of a longer row of tokens. -/
theorem rulesAt_persist (more : List Token) [Apart more] :
    ∀ {depth other : Nat}, depth ≤ other → Rules.Persist more (rulesAt depth) (rulesAt other)
  | 0, other, le => ⟨le, fun _ => .exhausted _, .exhausted _, .exhausted _⟩
  | depth + 1, other + 1, le => by
      have persist := rulesAt_persist more (Nat.le_of_succ_le_succ le)
      exact ⟨le, fun min => (rulesAt depth).expressionAt_persists (rulesAt other) min,
        (rulesAt depth).statementRule_persists (rulesAt other),
        (rulesAt depth).declarationRule_persists (rulesAt other)⟩

namespace Derives

variable {stop : Token} {p q : Place}

/-- A declaration is one as well if more tokens follow that no statement goes on with. -/
theorem Declaration.before {s : Stmt} (derived : Declaration stop p s q) (ends : stop.isEnd = true)
    (more : List Token) [Apart more] {stop' : Token} (ends' : stop'.isEnd = true) :
    Declaration stop' (p.before more) s (q.before more) := by
  have le : 3 * p.tokens.length + 3 ≤ 3 * (p.before more).tokens.length + 3 := by
    change _ ≤ 3 * (p.tokens ++ more).length + 3
    rw [List.length_append]
    omega
  have read := ((rulesAt_speaks ends (Nat.le_refl _)).declaration (Nat.le_refl _)).mpr
    ⟨s, rfl, derived⟩
  have longer := (rulesAt_persist more le).declaration.longer ends read nofun stop'
  obtain ⟨s', same, derived⟩ :=
    ((rulesAt_speaks ends' (Nat.le_refl _)).declaration (Nat.le_refl _)).mp longer
  cases same
  exact derived

theorem Declaration.noElse {s : Stmt} (derived : Declaration stop p s q) :
    ¬p.Sees (.keyword .elseWord) := by
  cases derived with
  | classDecl opens => exact opens.sees.other (by decide)
  | function opens => exact opens.sees.other (by decide)
  | var declared =>
      obtain ⟨keyword, r, opens⟩ := declared.opens
      exact opens.sees.other (by decide)
  | statement stated => exact stated.not_sees rfl

/-- No statement goes on with a program that follows it. -/
theorem Declarations.apart {ss : List Stmt} (derived : Declarations stop p ss q)
    (finished : q.tokens = []) : Apart p.tokens := by
  constructor
  cases derived with
  | nil =>
      rw [finished]
      nofun
  | cons first => exact first.noElse

/-- One program after another. -/
theorem Declarations.append {more : List Token} [Apart more] (ends : stop.isEnd = true)
    {stop' : Token} (ends' : stop'.isEnd = true) {ss' : List Stmt} {last : Place} :
    ∀ {p q : Place} {ss : List Stmt}, Declarations stop p ss q →
      Declarations stop' (q.before more) ss' last →
        Declarations stop' (p.before more) (ss ++ ss') last
  | _, _, _, .nil _, second => second
  | _, _, _, .cons head further, second =>
      .cons (head.before ends more ends') (append ends ends' further second)

end Derives

theorem parse_eq_iff {body : List Token} {eof : Token} {firstId nextId : NodeId} {ss : List Stmt}
    (single : ∀ token ∈ body, token.isEnd = false) (ends : eof.isEnd = true) :
    parse (body ++ [eof]) firstId = ⟨ss, [], none, nextId⟩ ↔
      Derives.Program eof body firstId ss nextId := by
  unfold parse
  rw [ofTokens_eq body eof firstId single ends]
  constructor
  · intro read
    obtain ⟨ss', q, done⟩ := accepts_of_errors ends (congrArg Parse.errors read)
    rw [errors_of_accepts done] at read
    cases read
    obtain ⟨derived, finished⟩ := (program_iff ends).mp done
    obtain ⟨tokens, nextId⟩ := q
    cases finished
    exact derived
  · intro derived
    exact errors_of_accepts ((program_iff ends).mpr ⟨derived, rfl⟩)

/-- Two programs that are read without an error are read one after the other if they stand one after
the other. -/
theorem parse_append {body more : List Token} {eof eof' : Token} {firstId middle nextId : NodeId}
    {ss ss' : List Stmt} (single : ∀ token ∈ body, token.isEnd = false)
    (single' : ∀ token ∈ more, token.isEnd = false) (ends : eof.isEnd = true)
    (ends' : eof'.isEnd = true) (first : parse (body ++ [eof]) firstId = ⟨ss, [], none, middle⟩)
    (second : parse (more ++ [eof']) middle = ⟨ss', [], none, nextId⟩) :
    parse (body ++ more ++ [eof']) firstId = ⟨ss ++ ss', [], none, nextId⟩ := by
  have derived := (parse_eq_iff single' ends').mp second
  have := derived.apart rfl
  have both : ∀ token ∈ body ++ more, token.isEnd = false := by
    intro token member
    rcases List.mem_append.mp member with inBody | inMore
    · exact single token inBody
    · exact single' token inMore
  exact (parse_eq_iff both ends').mpr
    (.append ends ends' ((parse_eq_iff single ends).mp first) derived)

end Lox.Grammar
