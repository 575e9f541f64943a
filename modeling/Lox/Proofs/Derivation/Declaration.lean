import Lox.Proofs.Derivation.Select

set_option autoImplicit false

/-! Classes, functions and declarations, accepted exactly as they are derived. Two tokens are looked at
where one does not show what is declared: a name before a parenthesis is a method, and `fun` declares
before a name only. -/

namespace Lox.Grammar

/-- The token after the next one is a terminal. -/
def Place.SeesSecond (place : Place) (terminal : Terminal) : Prop :=
  place.tokens.tail.head?.bind Token.terminal? = some terminal

namespace Accepts

open Derives

variable {α : Type} {stop : Token} {p q r : Place} {a : α}

instance seesSecond_decidable (place : Place) (terminal : Terminal) :
    Decidable (place.SeesSecond terminal) :=
  inferInstanceAs (Decidable (_ = _))

theorem lookAhead_iff {first second : Terminal} {f : Bool → Bool → Rule α} :
    Accepts stop (do
        let one ← Rule.check first
        let two ← Rule.checkSecond second
        f one two) p a q ↔
      Accepts stop (f (decide (p.Sees first)) (decide (p.SeesSecond second))) p a q := by
  have looked : Rule.checkSecond second (p.cursor stop) =
      .ok (decide (p.SeesSecond second)) (p.cursor stop) := by
    unfold Rule.checkSecond Place.SeesSecond
    congr 1
    exact beq_eq_decide _ _
  unfold Accepts
  rw [check_bind, Outcome.bind_of_ok looked]

theorem seesSecond_iff {terminal wanted : Terminal} {token : Token}
    (passes : Passes terminal p token q) : p.SeesSecond wanted ↔ q.Sees wanted := by
  obtain ⟨-, rfl⟩ := passes
  rfl

/-- The next token is taken after it has been looked at. -/
theorem taken_iff {terminal : Terminal} {token : Token} {f : Token → Rule α}
    (passes : Passes terminal p token q) :
    Accepts stop (do
        let token ← Rule.peek
        Rule.advance
        f token) p a r ↔ Accepts stop (f token) q a r := by
  obtain ⟨-, rfl⟩ := passes
  rfl

theorem advance_iff {terminal : Terminal} {token : Token} {rule : Rule α}
    (passes : Passes terminal p token q) :
    Accepts stop (do
        Rule.advance
        rule) p a r ↔ Accepts stop rule q a r := by
  obtain ⟨-, rfl⟩ := passes
  rfl

end Accepts

namespace Derives

variable {stop : Token} {p q r : Place} {s : Stmt}

theorem Function.sees {name : Option Token} {kind : FunctionKind} {decl : FunctionDecl}
    (derived : Function stop name kind p decl q) : p.Sees (.symbol .leftParen) := by
  cases derived with
  | mk leftParen => exact leftParen.sees

theorem Initializer.not_sees {initial : Option Expr} {semicolon : Token} {terminal : Terminal}
    (value : Initializer stop p initial q) (ends : Passes (.symbol .semicolon) q semicolon r)
    (noEqual : .symbol .equal ≠ terminal) (noEnd : .symbol .semicolon ≠ terminal) :
    ¬p.Sees terminal := by
  cases value with
  | absent => exact ends.sees.other noEnd
  | present equal => exact equal.sees.other noEqual

theorem Initializer.length_le (ends : stop.isEnd = true) {initial : Option Expr}
    (value : Initializer stop p initial q) : q.tokens.length ≤ p.tokens.length := by
  cases value with
  | absent => exact Nat.le_refl _
  | present equal read =>
      have one := equal.length
      have two := read.fewer ends
      omega

theorem Statement.not_named {token : Token} (derived : Statement stop p s q)
    (isFunction : Passes (.keyword .funWord) p token r) : ¬r.Sees .name := by
  cases derived with
  | expression stated =>
      cases stated with
      | mk read => exact read.not_named isFunction
  | print opens => cases opens.only isFunction.sees
  | whileLoop opens => cases opens.only isFunction.sees
  | forLoop opens => cases opens.only isFunction.sees
  | switch opens => cases opens.only isFunction.sees
  | ifThen opens => cases opens.only isFunction.sees
  | ifElse opens => cases opens.only isFunction.sees
  | block inner =>
      cases inner with
      | mk opens => cases opens.only isFunction.sees
  | ret opens => cases opens.only isFunction.sees

/-- `IDENT ( "=" expression )? ";"` -/
def Field (stop : Token) (p : Place) (field : FieldDecl) (q : Place) : Prop :=
  ∃ name r initial t semicolon, field = .mk name initial ∧ Passes .name p name r ∧
    Initializer stop r initial t ∧ Passes (.symbol .semicolon) t semicolon q

/-- One more member, which is put before those of its kind found so far. -/
def MemberStep (stop : Token) (found : Rules.Members) (p : Place) (next : Rules.Members)
    (q : Place) : Prop :=
  (∃ name r decl, next = { found with methods := decl :: found.methods } ∧ Passes .name p name r ∧
    Function stop (some name) (if name.lexeme = "init" then .initializer else .method) r decl q) ∨
  (∃ keyword r field, next = { found with fields := field :: found.fields } ∧
    Optionally (Passes (.keyword .varWord)) p keyword r ∧ Field stop r field q)

theorem members_of_steps {found last : Rules.Members}
    (steps : Accepts.Steps (MemberStep stop) found p last q) :
    ∃ fields methods, Members stop p fields methods q ∧
      last = ⟨fields.reverse ++ found.fields, methods.reverse ++ found.methods⟩ := by
  induction steps with
  | refl found p => exact ⟨[], [], .nil p, rfl⟩
  | head first _ ih =>
      obtain ⟨fields, methods, rest, rfl⟩ := ih
      rcases first with ⟨name, r, decl, rfl, named, function⟩ |
        ⟨keyword, r, field, rfl, explicit, name, t, initial, u, semicolon, rfl, named, value, ends⟩
      · refine ⟨fields, _, .method named function rest, ?_⟩
        rw [List.reverse_cons, List.append_assoc]
        rfl
      · refine ⟨_, methods, .field explicit named value ends rest, ?_⟩
        rw [List.reverse_cons, List.append_assoc]
        rfl

theorem steps_of_members : ∀ {p q : Place} {fields : List FieldDecl} {methods : List FunctionDecl},
    Members stop p fields methods q → ∀ found : Rules.Members,
      Accepts.Steps (MemberStep stop) found p
        ⟨fields.reverse ++ found.fields, methods.reverse ++ found.methods⟩ q
  | _, _, _, _, .nil p, found => .refl found p
  | _, _, _, _, @Members.method _ _ _ _ _ name decl fields methods named function rest, found => by
      rw [List.reverse_cons, List.append_assoc]
      exact .head (.inl ⟨name, _, decl, rfl, named, function⟩)
        (steps_of_members rest { found with methods := decl :: found.methods })
  | _, _, _, _, @Members.field _ _ _ _ _ _ _ keyword name semicolon initial fields methods explicit
      named value ends rest, found => by
      rw [List.reverse_cons, List.append_assoc]
      exact .head (.inr ⟨keyword, _, _, rfl, explicit, name, _, initial, _, semicolon, rfl, named,
        value, ends⟩) (steps_of_members rest { found with fields := .mk name initial :: found.fields })

end Derives

namespace Rules.Speaks

open Derives Accepts

variable {rules : Rules} {stop : Token} {deep : Nat} (speaks : rules.Speaks stop deep)
  {p q r : Place} {s : Stmt}
include speaks

theorem field_iff (fits : 3 * p.tokens.length ≤ deep) (explicit : Bool) {field : FieldDecl} :
    Accepts stop (rules.field explicit) p field q ↔ Field stop p field q := by
  have := speaks.growing
  unfold Rules.field
  constructor
  · intro done
    obtain ⟨name, r, named, done⟩ := bind_iff.mp done
    obtain ⟨initial, t, value, done⟩ := bind_iff.mp done
    obtain ⟨semicolon, u, ends, done⟩ := bind_iff.mp done
    obtain ⟨rfl, rfl⟩ := pure_iff.mp done
    have named := expect_iff.mp named
    have ends := expect_iff.mp ends
    have one := named.length
    exact ⟨name, r, initial, t, semicolon, rfl, named,
      (speaks.initializer_iff (by omega) ends.sees).mp value, ends⟩
  · rintro ⟨name, r, initial, t, semicolon, rfl, named, value, ends⟩
    have one := named.length
    exact bind_iff.mpr ⟨_, _, expect_iff.mpr named, bind_iff.mpr ⟨_, _,
      (speaks.initializer_iff (by omega) ends.sees).mpr value, bind_iff.mpr ⟨_, _,
        expect_iff.mpr ends, pure_iff.mpr ⟨rfl, rfl⟩⟩⟩⟩

omit speaks in
theorem methodKind_eq (name : Token) :
    methodKind name = if name.lexeme = "init" then .initializer else .method := by
  unfold methodKind
  simp only [beq_iff_eq]

theorem memberRound_iff (fits : 3 * p.tokens.length ≤ deep) (found : Rules.Members)
    (outcome : Rule.Round Rules.Members Rules.Members) (q : Place) :
    Accepts stop (rules.memberRound found) p outcome q ↔
      ((p.Sees (.symbol .rightBrace) ∨ p.tokens = []) ∧ outcome = .finish found ∧ q = p) ∨
        ∃ next, outcome = .again next ∧ MemberStep stop found p next q := by
  have := speaks.growing
  unfold memberRound
  rw [closed_iff]
  constructor
  · rintro (⟨closed, done⟩ | ⟨-, done⟩)
    · exact .inl ⟨closed, pure_iff.mp done⟩
    · right
      rcases accept_iff.mp done with ⟨keyword, r, explicit, done⟩ | ⟨-, done⟩
      · have one := explicit.length
        obtain ⟨field, t, read, done⟩ := bind_iff.mp (lookAhead_iff.mp done)
        obtain ⟨rfl, rfl⟩ := pure_iff.mp done
        exact ⟨_, rfl, .inr ⟨some keyword, r, field, rfl, .present explicit,
          (speaks.field_iff (by omega) _).mp read⟩⟩
      · have done := lookAhead_iff.mp done
        by_cases isMethod : p.Sees .name ∧ p.SeesSecond (.symbol .leftParen)
        · obtain ⟨name, r, named⟩ := sees_iff.mp isMethod.1
          have one := named.length
          rw [if_pos (by simpa using isMethod), taken_iff named] at done
          obtain ⟨method, t, function, done⟩ := bind_iff.mp done
          obtain ⟨rfl, rfl⟩ := pure_iff.mp done
          rw [methodKind_eq] at function
          exact ⟨_, rfl, .inl ⟨name, r, method, rfl, named,
            (speaks.functionBody_iff (by omega) _ _).mp function⟩⟩
        · rw [if_neg (by simpa using isMethod)] at done
          obtain ⟨field, t, read, done⟩ := bind_iff.mp done
          obtain ⟨rfl, rfl⟩ := pure_iff.mp done
          exact ⟨_, rfl, .inr ⟨none, p, field, rfl, .absent p,
            (speaks.field_iff fits _).mp read⟩⟩
  · rintro (⟨closed, rfl, rfl⟩ | ⟨next, rfl, step⟩)
    · exact .inl ⟨closed, pure_iff.mpr ⟨rfl, rfl⟩⟩
    · right
      rcases step with ⟨name, r, decl, rfl, named, function⟩ |
        ⟨keyword, r, field, rfl, explicit, derived⟩
      · have one := named.length
        have isMethod := (seesSecond_iff named).mpr function.sees
        refine ⟨⟨named.sees.other (by decide), List.length_pos_iff.mp named.pos⟩, accept_iff.mpr
          (.inr ⟨named.sees.other (by decide), lookAhead_iff.mpr ?_⟩)⟩
        rw [if_pos (by simpa using ⟨named.sees, isMethod⟩), taken_iff named, methodKind_eq]
        exact bind_iff.mpr ⟨_, _, (speaks.functionBody_iff (by omega) _ _).mpr function,
          pure_iff.mpr ⟨rfl, rfl⟩⟩
      · cases explicit with
        | present explicit =>
            have one := explicit.length
            exact ⟨⟨explicit.sees.other (by decide), List.length_pos_iff.mp explicit.pos⟩,
              accept_iff.mpr (.inl ⟨_, _, explicit, lookAhead_iff.mpr (bind_iff.mpr ⟨_, _,
                (speaks.field_iff (by omega) _).mpr derived, pure_iff.mpr ⟨rfl, rfl⟩⟩)⟩)⟩
        | absent =>
            obtain ⟨name, t, initial, u, semicolon, -, named, value, ends⟩ := id derived
            have noMethod : ¬p.SeesSecond (.symbol .leftParen) :=
              (seesSecond_iff named).not.mpr (value.not_sees ends (by decide) (by decide))
            refine ⟨⟨named.sees.other (by decide), List.length_pos_iff.mp named.pos⟩,
              accept_iff.mpr (.inr ⟨named.sees.other (by decide), lookAhead_iff.mpr ?_⟩)⟩
            rw [if_neg (by simp [noMethod])]
            exact bind_iff.mpr ⟨_, _, (speaks.field_iff fits _).mpr derived,
              pure_iff.mpr ⟨rfl, rfl⟩⟩

theorem function_fewer (fits : 3 * p.tokens.length ≤ deep) {name : Option Token}
    {kind : FunctionKind} {decl : FunctionDecl} (derived : Function stop name kind p decl q) :
    q.tokens.length < p.tokens.length := by
  have names : Option.Rel Reading.self.pair name name := by
    cases name with
    | none => exact .none
    | some token => exact .some rfl
  obtain ⟨-, -, -, fewer, -⟩ := Reading.self.reaches_of_ok
    (functionBody_abreast speaks.abreast fits names kind) speaks.ends rfl
    ((speaks.functionBody_iff fits name kind).mpr derived)
  exact fewer

theorem memberStep_shorter (fits : 3 * p.tokens.length ≤ deep) {found next : Rules.Members}
    (step : MemberStep stop found p next q) :
    q.tokens.length < p.tokens.length ∧ 3 * q.tokens.length ≤ deep := by
  have shorter : q.tokens.length < p.tokens.length := by
    rcases step with ⟨name, r, decl, -, named, function⟩ |
      ⟨keyword, r, field, -, explicit, name, t, initial, u, semicolon, -, named, value, ends⟩
    · have one := named.length
      have two := speaks.function_fewer (by omega) function
      omega
    · have one := named.length
      have two := value.length_le speaks.ends
      have three := ends.length
      cases explicit with
      | absent => omega
      | present explicit =>
          have four := explicit.length
          omega
  exact ⟨shorter, by omega⟩

theorem classDeclaration_iff (fits : 3 * p.tokens.length ≤ deep) :
    Accepts stop rules.classDeclaration p s r ↔
      ∃ name q id t thisId u left v fields methods right w,
        s = .class id name thisId fields methods ∧ Passes .name p name q ∧ Numbers q id t ∧
          Numbers t thisId u ∧ Passes (.symbol .leftBrace) u left v ∧
            Derives.Members stop v fields methods w ∧
              Passes (.symbol .rightBrace) w right r := by
  have := speaks.growing
  have bound := speaks.abreast.bound
  have repeated {v w : Place} {found : Rules.Members} (fits : 3 * v.tokens.length + 1 ≤ deep) :
      Accepts stop (Rule.iterate rules.memberRound rules.bound ⟨[], []⟩) v found w ↔
        ∃ last, Steps (MemberStep stop) ⟨[], []⟩ v last w ∧
          (w.Sees (.symbol .rightBrace) ∨ w.tokens = []) ∧ found = last :=
    steps_iff
      (fun found p outcome q (fits : 3 * p.tokens.length ≤ deep) =>
        speaks.memberRound_iff fits found outcome q)
      (fun _ _ _ _ fits step => speaks.memberStep_shorter fits step)
      (show 3 * v.tokens.length ≤ deep by omega) (show v.tokens.length < rules.bound by omega)
  unfold Rules.classDeclaration
  constructor
  · intro done
    obtain ⟨name, q, named, done⟩ := bind_iff.mp done
    obtain ⟨id, t, node, done⟩ := bind_iff.mp done
    obtain ⟨thisId, u, receiver, done⟩ := bind_iff.mp done
    obtain ⟨left, v, begins, done⟩ := bind_iff.mp done
    obtain ⟨found, w, rounds, done⟩ := bind_iff.mp done
    obtain ⟨right, x, ends, done⟩ := bind_iff.mp done
    obtain ⟨rfl, rfl⟩ := pure_iff.mp done
    have named := expect_iff.mp named
    have node := fresh_iff.mp node
    have receiver := fresh_iff.mp receiver
    have begins := expect_iff.mp begins
    have one := named.length
    have two := congrArg List.length node.tokens
    have three := congrArg List.length receiver.tokens
    have four := begins.length
    obtain ⟨last, steps, -, rfl⟩ := (repeated (by omega)).mp rounds
    obtain ⟨fields, methods, derived, rfl⟩ := members_of_steps steps
    simp only [List.append_nil, List.reverse_reverse]
    exact ⟨name, q, id, t, thisId, u, left, v, fields, methods, right, w, rfl, named, node, receiver,
      begins, derived, expect_iff.mp ends⟩
  · rintro ⟨name, q, id, t, thisId, u, left, v, fields, methods, right, w, rfl, named, node,
      receiver, begins, derived, ends⟩
    have one := named.length
    have two := congrArg List.length node.tokens
    have three := congrArg List.length receiver.tokens
    have four := begins.length
    have steps := steps_of_members derived ⟨[], []⟩
    simp only [List.append_nil] at steps
    refine bind_iff.mpr ⟨_, _, expect_iff.mpr named, bind_iff.mpr ⟨_, _, fresh_iff.mpr node,
      bind_iff.mpr ⟨_, _, fresh_iff.mpr receiver, bind_iff.mpr ⟨_, _, expect_iff.mpr begins,
        bind_iff.mpr ⟨_, _, (repeated (by omega)).mpr ⟨_, steps, .inl ends.sees, rfl⟩,
          bind_iff.mpr ⟨_, _, expect_iff.mpr ends, pure_iff.mpr ⟨?_, rfl⟩⟩⟩⟩⟩⟩⟩
    simp only [List.reverse_reverse]

theorem functionDeclaration_iff (fits : 3 * p.tokens.length ≤ deep) :
    Accepts stop rules.functionDeclaration p s r ↔
      ∃ name q id t decl, s = .function id name decl ∧ Passes .name p name q ∧ Numbers q id t ∧
        Function stop (some name) .function t decl r := by
  have := speaks.growing
  unfold Rules.functionDeclaration
  constructor
  · intro done
    obtain ⟨name, q, named, done⟩ := bind_iff.mp done
    obtain ⟨id, t, node, done⟩ := bind_iff.mp done
    obtain ⟨decl, u, function, done⟩ := bind_iff.mp done
    obtain ⟨rfl, rfl⟩ := pure_iff.mp done
    have named := expect_iff.mp named
    have node := fresh_iff.mp node
    have one := named.length
    have two := congrArg List.length node.tokens
    exact ⟨name, q, id, t, decl, rfl, named, node,
      (speaks.functionBody_iff (by omega) _ _).mp function⟩
  · rintro ⟨name, q, id, t, decl, rfl, named, node, function⟩
    have one := named.length
    have two := congrArg List.length node.tokens
    exact bind_iff.mpr ⟨_, _, expect_iff.mpr named, bind_iff.mpr ⟨_, _, fresh_iff.mpr node,
      bind_iff.mpr ⟨_, _, (speaks.functionBody_iff (by omega) _ _).mpr function,
        pure_iff.mpr ⟨rfl, rfl⟩⟩⟩⟩

theorem declarationOrStatement_iff (fits : 3 * p.tokens.length + 2 ≤ deep) :
    Accepts stop rules.declarationOrStatement p s r ↔ Declaration stop p s r := by
  have := speaks.growing
  unfold Rules.declarationOrStatement
  constructor
  · intro done
    rcases accept_iff.mp done with ⟨keyword, q, opens, done⟩ | ⟨-, done⟩
    · have one := opens.length
      exact .var ((speaks.varDeclaration_iff opens (by omega)).mp done)
    · rcases accept_iff.mp done with ⟨keyword, q, opens, done⟩ | ⟨-, done⟩
      · have one := opens.length
        obtain ⟨name, t, id, u, thisId, v, left, w, fields, methods, right, x, rfl, named, node,
          receiver, begins, members, ends⟩ := (speaks.classDeclaration_iff (by omega)).mp done
        exact .classDecl opens named node receiver begins members ends
      · have done := lookAhead_iff.mp done
        by_cases isFunction : p.Sees (.keyword .funWord) ∧ p.SeesSecond .name
        · obtain ⟨keyword, q, opens⟩ := sees_iff.mp isFunction.1
          have one := opens.length
          rw [if_pos (by simpa using isFunction), advance_iff opens] at done
          obtain ⟨name, t, id, u, decl, rfl, named, node, function⟩ :=
            (speaks.functionDeclaration_iff (by omega)).mp done
          exact .function opens named node function
        · rw [if_neg (by simpa using isFunction)] at done
          exact .statement ((speaks.statement fits).mp done)
  · intro derived
    cases derived with
    | var declared =>
        obtain ⟨keyword, q, opens⟩ := declared.opens
        have one := opens.length
        exact accept_iff.mpr (.inl ⟨_, _, opens,
          (speaks.varDeclaration_iff opens (by omega)).mpr declared⟩)
    | classDecl opens named node receiver begins members ends =>
        have one := opens.length
        exact accept_iff.mpr (.inr ⟨opens.sees.other (by decide), accept_iff.mpr (.inl ⟨_, _, opens,
          (speaks.classDeclaration_iff (by omega)).mpr ⟨_, _, _, _, _, _, _, _, _, _, _, _, rfl,
            named, node, receiver, begins, members, ends⟩⟩)⟩)
    | function opens named node function =>
        have one := opens.length
        have isFunction := (seesSecond_iff opens).mpr named.sees
        refine accept_iff.mpr (.inr ⟨opens.sees.other (by decide), accept_iff.mpr (.inr
          ⟨opens.sees.other (by decide), lookAhead_iff.mpr ?_⟩)⟩)
        rw [if_pos (by simpa using ⟨opens.sees, isFunction⟩), advance_iff opens]
        exact (speaks.functionDeclaration_iff (by omega)).mpr
          ⟨_, _, _, _, _, rfl, named, node, function⟩
    | statement stated =>
        have noFunction : ¬(p.Sees (.keyword .funWord) ∧ p.SeesSecond .name) := by
          rintro ⟨sees, second⟩
          obtain ⟨keyword, q, opens⟩ := sees_iff.mp sees
          exact stated.not_named opens ((seesSecond_iff opens).mp second)
        refine accept_iff.mpr (.inr ⟨stated.not_sees rfl, accept_iff.mpr (.inr
          ⟨stated.not_sees rfl, lookAhead_iff.mpr ?_⟩)⟩)
        rw [if_neg (by simpa using noFunction)]
        exact (speaks.statement fits).mpr stated

theorem declarationRule_iff (fits : 3 * p.tokens.length + 2 ≤ deep) {found : Option Stmt} :
    Accepts stop rules.declarationRule p found r ↔
      ∃ s, found = some s ∧ Declaration stop p s r := by
  unfold Rules.declarationRule
  rw [recover_iff]
  constructor
  · rintro ⟨s, rfl, done⟩
    exact ⟨s, rfl, (speaks.declarationOrStatement_iff fits).mp done⟩
  · rintro ⟨s, rfl, derived⟩
    exact ⟨s, rfl, (speaks.declarationOrStatement_iff fits).mpr derived⟩

end Rules.Speaks
end Lox.Grammar
