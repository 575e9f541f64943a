import Lox.Grammar.Statement
import Lox.Proofs.Grammar.Expression
import Lox.Proofs.Grammar.Program
import Lox.Proofs.Reading.Expression

set_option autoImplicit false

/-! Statements, declarations and programs, read abreast. After an error two readings go on at corresponding
tokens, and the arms of a switch are compared with corresponding hidden variables. The depth that is
allowed for a row of tokens is never used up, and any two depths that are enough read the same. -/

namespace Lox

variable {like : Likeness}

theorem Stmt.Like.scoped {s s' : Stmt} (alike : Stmt.Like like s s') :
    Stmt.Like like s.scoped s'.scoped := by
  have wrap {s s' : Stmt} (alike : Stmt.Like like s s') :
      Stmt.Like like (.block [s]) (.block [s']) := .block (.cons alike .nil)
  cases alike with
  | expression values => exact wrap (.expression values)
  | print values => exact wrap (.print values)
  | var names => exact wrap (.var names)
  | varInitial names initials => exact wrap (.varInitial names initials)
  | block bodies => exact .block bodies
  | branch conditions thens => exact wrap (.branch conditions thens)
  | branchElse conditions thens elses => exact wrap (.branchElse conditions thens elses)
  | loop conditions bodies => exact wrap (.loop conditions bodies)
  | function names decls => exact wrap (.function names decls)
  | ret keywords => exact wrap (.ret keywords)
  | retValue keywords values => exact wrap (.retValue keywords values)
  | classDecl names tokens receivers fields methods =>
      exact wrap (.classDecl names tokens receivers fields methods)
  | switch ids keywords subjects chains => exact .switch ids keywords subjects chains

theorem Functions.Like.of_forall {decls decls' : List FunctionDecl}
    (all : List.Forall₂ (FunctionDecl.Like like) decls decls') :
    Functions.Like like decls decls' := by
  induction all with
  | nil => exact .nil
  | cons head _ ih => exact .cons head ih

def FieldDecl.Like (like : Likeness) (one two : FieldDecl) : Prop :=
  Fields.Like like [one] [two]

theorem Fields.Like.of_forall {decls decls' : List FieldDecl}
    (all : List.Forall₂ (FieldDecl.Like like) decls decls') : Fields.Like like decls decls' := by
  induction all with
  | nil => exact .nil
  | cons head _ ih =>
      cases head with
      | cons names _ => exact .cons names ih
      | consInitial names initials _ => exact .consInitial names initials ih

namespace Grammar

section Recover

variable {r : Reading}

theorem resume_like {ts us : List Token} (pairs : List.Forall₂ r.pair ts us) :
    ∀ {t u : Token}, r.pair t u → List.Forall₂ r.pair (resume t ts) (resume u us) := by
  induction pairs with
  | nil => exact fun _ => .nil
  | cons head tail ih =>
      intro t u pair
      rw [resume, resume, ← Reading.terminal_eq pair, ← Reading.terminal_eq head]
      split
      · exact .cons head tail
      · exact ih head

theorem resume_suffix : ∀ (passed : Token) (tokens : List Token), resume passed tokens <:+ tokens
  | _, [] => List.suffix_rfl
  | passed, token :: rest => by
      rw [resume]
      split
      · exact List.suffix_rfl
      · exact (resume_suffix token rest).trans (List.suffix_cons token rest)

theorem Cursor.Like.synchronize {c d : Cursor} (like : c.Like r d) :
    c.synchronize.Like r d.synchronize := by
  have pairs := like.pending
  unfold Cursor.synchronize
  generalize one : c.pending = ts at pairs
  generalize two : d.pending = us at pairs
  cases pairs with
  | nil => exact like
  | cons head tail =>
      exact ⟨resume_like tail head, like.stop, like.ends, like.nextId, like.recorded⟩

theorem Cursor.Reaches.synchronize (cursor : Cursor) : cursor.Reaches cursor.synchronize := by
  unfold Cursor.synchronize
  cases tokens : cursor.pending with
  | nil => exact .refl cursor
  | cons t rest =>
      refine ⟨?_, rfl, Nat.le_refl _, List.suffix_rfl⟩
      rw [tokens]
      exact (resume_suffix t rest).trans (List.suffix_cons t rest)

/-- Beginning again passes a token, if one is left. -/
theorem Cursor.synchronize_lt {cursor : Cursor} (some : 0 < cursor.pending.length) :
    cursor.synchronize.pending.length < cursor.pending.length := by
  unfold Cursor.synchronize
  cases tokens : cursor.pending with
  | nil =>
      rw [tokens] at some
      cases some
  | cons t rest => exact Nat.lt_succ_of_le (resume_suffix t rest).length_le

theorem recover_abreast {α β : Type} {n : Nat} {good : α → β → Prop} {one : Rule α} {two : Rule β}
    (abreast : Abreast r n (fun m a b => m < n ∧ good a b) one two) :
    Abreast r n (fun m a b => (0 < n → m < n) ∧ Option.Rel good a b) (recover one)
      (recover two) := by
  intro c d like same
  have meets := abreast c d like same
  generalize done : one c = x at meets
  generalize other : two d = y at meets
  cases meets with
  | ok alike reaches isGood =>
      simp only [recover, done, other]
      exact .ok alike reaches ⟨fun _ => isGood.1, .some isGood.2⟩
  | @error e f after last alike reaches errors =>
      simp only [recover, done, other, ← errors.1]
      split
      · exact .error alike reaches errors
      · have noted : Cursor.Like r { after with recorded := e :: after.recorded }
            { last with recorded := f :: last.recorded } :=
          ⟨alike.pending, alike.stop, alike.ends, alike.nextId, .cons errors alike.recorded⟩
        have more : c.Reaches { after with recorded := e :: after.recorded } :=
          ⟨reaches.pending, reaches.stop, reaches.nextId,
            reaches.recorded.trans (List.suffix_cons _ _)⟩
        refine .ok noted.synchronize (more.trans (.synchronize _)) ⟨fun some => ?_, .none⟩
        have few := more.length_le
        have fewer := (Cursor.Reaches.synchronize
          { after with recorded := e :: after.recorded }).length_le
        rcases Nat.eq_zero_or_pos after.pending.length with none | some
        · rw [none] at fewer
          exact Nat.lt_of_le_of_lt fewer (by assumption)
        · exact Nat.lt_of_lt_of_le (Cursor.synchronize_lt some) (same ▸ few)

end Recover

namespace Rules

open Grammar.Abreast (Kept)

variable {r : Reading}

/-- An arm's pattern and action, or the action of a default arm, where actions declare nothing. -/
structure ActionLike (like : Likeness) (action other : Stmt) : Prop where
  like : Stmt.Like like action other
  bare : action.declared = []
  otherBare : other.declared = []

structure ArmsLike (like : Likeness) (found other : Arms) : Prop where
  arms : List.Forall₂ (fun one two => Expr.Like like one.1 two.1 ∧ ActionLike like one.2 two.2)
    found.arms other.arms
  default : Option.Rel (ActionLike like) found.default other.default

structure MembersLike (like : Likeness) (found other : Members) : Prop where
  fields : List.Forall₂ (FieldDecl.Like like) found.fields other.fields
  methods : List.Forall₂ (FunctionDecl.Like like) found.methods other.methods

theorem isDefaultPattern_eq {pattern other : Expr} (alike : Expr.Like r.likeness pattern other) :
    isDefaultPattern pattern = isDefaultPattern other := by
  cases alike with
  | name names => exact congrArg (· == "_") (r.same _ _ names.2).2
  | _ => rfl

theorem forLoop_like {like : Likeness} {first first' : Option Stmt} {condition condition' : Expr}
    {last last' : Option Expr} {body body' : Stmt}
    (before : Option.Rel (Stmt.Like like) first first')
    (conditions : Expr.Like like condition condition')
    (after : Option.Rel (Expr.Like like) last last') (bodies : Stmt.Like like body body') :
    Stmt.Like like (forLoop first condition last body) (forLoop first' condition' last' body') := by
  have inner : Stmt.Like like (forLoop none condition last body)
      (forLoop none condition' last' body') := by
    cases after with
    | none => exact .loop conditions bodies.scoped
    | some steps => exact .loop conditions (.block (.cons bodies (.cons (.expression steps) .nil)))
  cases before with
  | none => exact inner
  | some firsts => exact .block (.cons firsts (.cons inner .nil))

theorem forLoop_declared (first : Option Stmt) (condition : Expr) (last : Option Expr)
    (body : Stmt) : (forLoop first condition last body).declared = [] := by
  cases first with
  | some s => rfl
  | none =>
      cases last with
      | some step => rfl
      | none => exact body.declared_scoped

theorem armChain_abreast {n : Nat} {hidden hidden' keyword keyword' : Token}
    {arms arms' : List (Expr × Stmt)}
    (all : List.Forall₂ (fun one two => Expr.Like r.likeness one.1 two.1 ∧
      ActionLike r.likeness one.2 two.2) arms arms') :
    ∀ {chain chain' : Option Stmt},
      Chain.Like r.likeness hidden keyword hidden' keyword' chain chain' →
        Grammar.Abreast r n (fun _ => Chain.Like r.likeness hidden keyword hidden' keyword')
          (armChain hidden keyword arms chain) (armChain hidden' keyword' arms' chain') := by
  induction all with
  | nil => exact fun chains => .pure chains
  | cons head _ ih =>
      intro chain chain' chains
      refine .fresh_bind fun id other counted => ih ?_
      exact .arm counted head.1 head.2.like head.2.bare head.2.otherBare chains

theorem chain_of_default {hidden hidden' keyword keyword' : Token} {action action' : Option Stmt}
    (actions : Option.Rel (ActionLike r.likeness) action action') :
    Chain.Like r.likeness hidden keyword hidden' keyword' action action' := by
  cases actions with
  | none => exact .nil
  | some alike => exact .default alike.like alike.bare alike.otherBare

variable {deep n : Nat} {one two : Rules} (abreast : Rules.Abreast r deep one two)
include abreast

section Statements

theorem expressionStatement_abreast (fits : 3 * n + 1 ≤ deep) :
    Grammar.Abreast r n (fun m s t => m < n ∧ ActionLike r.likeness s t) one.expressionStatement
      two.expressionStatement := by
  unfold expressionStatement
  refine (abreast.expression n _ fits).bind fun m e f _ read => ?_
  exact .expect_bind _ _ fun k _ _ less _ _ => .pure ⟨by omega, .expression read.2, rfl, rfl⟩

theorem printStatement_abreast (fits : 3 * n + 1 ≤ deep) :
    Grammar.Abreast r n (fun m s t => m < n ∧ ActionLike r.likeness s t) one.printStatement
      two.printStatement := by
  unfold printStatement
  refine (abreast.expression n _ fits).bind fun m e f _ read => ?_
  exact .expect_bind _ _ fun k _ _ less _ _ => .pure ⟨by omega, .print read.2, rfl, rfl⟩

theorem returnStatement_abreast (fits : 3 * n + 1 ≤ deep) {keyword keyword' : Token}
    (keywords : r.pair keyword keyword') :
    Grammar.Abreast r n (fun m s t => m < n ∧ ActionLike r.likeness s t)
      (one.returnStatement keyword) (two.returnStatement keyword') := by
  unfold returnStatement
  refine .check_bind _ fun bare _ => ?_
  dsimp only
  split
  · exact .expect_bind _ _ fun k _ _ less _ _ => .pure ⟨less, .ret keywords, rfl, rfl⟩
  · have read : Grammar.Abreast r n (fun _ => Option.Rel (Expr.Like r.likeness))
        (some <$> one.expression .lowest) (some <$> two.expression .lowest) :=
      (abreast.expression n _ fits).fmap some some fun m e f _ read => .some read.2
    refine read.bind fun m value value' few values => ?_
    refine .expect_bind _ _ fun k _ _ less _ _ => .pure ⟨by omega, ?_, rfl, rfl⟩
    cases values with
    | none => exact .ret keywords
    | some values => exact .retValue keywords values

theorem whileStatement_abreast (fits : 3 * n ≤ deep) :
    Grammar.Abreast r n (fun m s t => m < n ∧ ActionLike r.likeness s t) one.whileStatement
      two.whileStatement := by
  unfold whileStatement
  refine .expect_bind _ _ fun m _ _ fewer _ _ => ?_
  refine (abreast.expression m _ (by omega)).bind fun k e f _ read => ?_
  refine .expect_bind _ _ fun l _ _ less _ _ => ?_
  refine (abreast.statement l (by omega)).map _ _ fun j s t _ body => ?_
  exact ⟨by omega, .loop read.2 body.2.1.scoped, s.declared_scoped, t.declared_scoped⟩

theorem ifStatement_abreast (fits : 3 * n ≤ deep) :
    Grammar.Abreast r n (fun m s t => m < n ∧ ActionLike r.likeness s t) one.ifStatement
      two.ifStatement := by
  unfold ifStatement
  refine .expect_bind _ _ fun m _ _ fewer _ _ => ?_
  refine (abreast.expression m _ (by omega)).bind fun k e f _ read => ?_
  refine .expect_bind _ _ fun l _ _ less _ _ => ?_
  refine (abreast.statement l (by omega)).bind fun j s t _ chosen => ?_
  refine .accept_bind _ (fun i passed => ?_) ?_
  · refine (abreast.statement i (by omega)).map _ _ fun h s' t' _ other => ?_
    refine ⟨by omega, .branchElse read.2 chosen.2.1.scoped other.2.1.scoped, ?_, ?_⟩
    · rw [Stmt.declared, s.declared_scoped, s'.declared_scoped, List.append_nil]
    · rw [Stmt.declared, t.declared_scoped, t'.declared_scoped, List.append_nil]
  · exact .pure ⟨by omega, .branch read.2 chosen.2.1.scoped, s.declared_scoped, t.declared_scoped⟩

theorem initializer_abreast (fits : 3 * n ≤ deep) :
    Grammar.Abreast r n (fun _ => Option.Rel (Expr.Like r.likeness)) one.initializer
      two.initializer := by
  unfold initializer
  refine .accept_bind _ (fun m fewer => ?_) (.pure .none)
  exact (abreast.expression m _ (by omega)).fmap _ _ fun k e f _ read => .some read.2

theorem varDeclaration_abreast (fits : 3 * n ≤ deep) :
    Grammar.Abreast r n (fun m s t => m < n ∧ Stmt.Like r.likeness s t) one.varDeclaration
      two.varDeclaration := by
  unfold varDeclaration
  refine .expect_bind _ _ fun m name name' fewer names _ => ?_
  refine .fresh_bind fun id other counted => ?_
  refine (initializer_abreast abreast (by omega)).bind fun k initial initial' _ initials => ?_
  refine .expect_bind _ _ fun l _ _ less _ _ => .pure ⟨by omega, ?_⟩
  cases initials with
  | none => exact .var ⟨counted, names⟩
  | some values => exact .varInitial ⟨counted, names⟩ values

theorem forInitializer_abreast (fits : 3 * n + 1 ≤ deep) :
    Grammar.Abreast r n (fun m s t => m < n ∧ Option.Rel (Stmt.Like r.likeness) s t)
      one.forInitializer two.forInitializer := by
  unfold forInitializer
  refine .accept_bind _ (fun m fewer => .pure ⟨fewer, .none⟩) ?_
  refine .accept_bind _ (fun m fewer => ?_) ?_
  · exact (varDeclaration_abreast abreast (by omega)).fmap _ _ fun k s t _ read =>
      ⟨by omega, .some read.2⟩
  · exact (expressionStatement_abreast abreast fits).fmap _ _ fun k s t _ read =>
      ⟨read.1, .some read.2.like⟩

theorem forStatement_abreast (fits : 3 * n ≤ deep) :
    Grammar.Abreast r n (fun m s t => m < n ∧ ActionLike r.likeness s t) one.forStatement
      two.forStatement := by
  unfold forStatement
  refine .expect_bind _ _ fun m _ _ fewer _ _ => ?_
  refine (forInitializer_abreast abreast (by omega)).bind fun k first first' _ before => ?_
  have few : k < n := by omega
  have rest (l : Nat) (less : l < n) {condition condition' : Expr}
      (conditions : Expr.Like r.likeness condition condition') :
      Grammar.Abreast r l (fun m s t => m < n ∧ ActionLike r.likeness s t) (do
        let _ ← Rule.expect (.symbol .semicolon) .loopConditionEnd
        let last ← do
          if ← Rule.check (.symbol .rightParen) then pure none
          else some <$> one.expression .lowest
        let _ ← Rule.expect (.symbol .rightParen) .forClose
        return forLoop first condition last (← one.statement)) (do
        let _ ← Rule.expect (.symbol .semicolon) .loopConditionEnd
        let last ← do
          if ← Rule.check (.symbol .rightParen) then pure none
          else some <$> two.expression .lowest
        let _ ← Rule.expect (.symbol .rightParen) .forClose
        return forLoop first' condition' last (← two.statement)) := by
    refine .expect_bind _ _ fun j _ _ passed _ _ => ?_
    have final (i : Nat) (under : i ≤ j) {last last' : Option Expr}
        (after : Option.Rel (Expr.Like r.likeness) last last') :
        Grammar.Abreast r i (fun m s t => m < n ∧ ActionLike r.likeness s t) (do
          let _ ← Rule.expect (.symbol .rightParen) .forClose
          return forLoop first condition last (← one.statement)) (do
          let _ ← Rule.expect (.symbol .rightParen) .forClose
          return forLoop first' condition' last' (← two.statement)) := by
      refine .expect_bind _ _ fun h _ _ closed _ _ => ?_
      refine (abreast.statement h (by omega)).map _ _ fun g s t _ body => ?_
      exact ⟨by omega, forLoop_like before.2 conditions after body.2.1, forLoop_declared _ _ _ _,
        forLoop_declared _ _ _ _⟩
    refine .check_bind _ fun closed _ => ?_
    dsimp only
    split
    · exact final j (Nat.le_refl j) .none
    · have read : Grammar.Abreast r j (fun _ => Option.Rel (Expr.Like r.likeness))
          (some <$> one.expression .lowest) (some <$> two.expression .lowest) :=
        (abreast.expression j _ (by omega)).fmap some some fun i e f _ read => .some read.2
      exact read.bind fun i last last' under after => final i under after
  refine .check_bind _ fun missing _ => ?_
  dsimp only
  split
  · exact rest k few (.literal _)
  · exact (abreast.expression k _ (by omega)).bind fun l e f under read =>
      rest l (by omega) read.2

theorem armRound_abreast (m : Nat) (fits : 3 * m + 1 ≤ deep) (found other : Arms)
    (alike : ArmsLike r.likeness found other) :
    Grammar.Abreast r m (Kept (ArmsLike r.likeness) (fun _ => ArmsLike r.likeness) m)
      (one.armRound found) (two.armRound other) := by
  unfold armRound
  refine .check_bind _ fun closed _ => ?_
  refine .atEnd_bind fun ended _ => ?_
  split
  · exact .pure alike
  · refine .peek_bind fun start start' starts _ => ?_
    refine (abreast.expression m _ fits).bind fun k pattern pattern' _ patterns => ?_
    refine .expect_bind _ _ fun l _ _ less _ _ => ?_
    refine (abreast.statement l (by omega)).bind fun j action action' _ actions => ?_
    have action : ActionLike r.likeness action action' := ⟨actions.2.1, actions.2.2.1, actions.2.2.2⟩
    rw [← isDefaultPattern_eq patterns.2]
    split
    · have default := alike.default
      generalize found.default = given at default
      generalize other.default = given' at default
      cases default with
      | none => exact .pure ⟨by omega, alike.arms, .some action⟩
      | some _ => exact .failAt _ starts
    · exact .pure ⟨by omega, .cons ⟨patterns.2, action⟩ alike.arms, alike.default⟩

theorem switchStatement_abreast (fits : 3 * n ≤ deep) {keyword keyword' : Token}
    (keywords : r.pair keyword keyword') :
    Grammar.Abreast r n (fun m s t => m < n ∧ ActionLike r.likeness s t)
      (one.switchStatement keyword) (two.switchStatement keyword') := by
  have bound := abreast.bound
  have limit := abreast.limit
  unfold switchStatement
  refine .expect_bind _ _ fun m _ _ fewer _ _ => ?_
  refine (abreast.expression m _ (by omega)).bind fun k subject subject' _ subjects => ?_
  refine .expect_bind _ _ fun l _ _ less _ _ => ?_
  refine .fresh_bind fun id other counted => ?_
  refine .expect_bind _ _ fun j _ _ passed _ _ => ?_
  refine (Grammar.Abreast.iterate (by omega) (by omega) ⟨.nil, .none⟩ fun i s t few =>
    armRound_abreast abreast i (by omega) s t).bind fun i found found' few arms => ?_
  refine .expect_bind _ _ fun h _ _ closed _ _ => ?_
  refine (armChain_abreast arms.arms (chain_of_default arms.default)).map _ _
    fun g chain chain' under chains => ?_
  exact ⟨by omega, .switch counted keywords subjects.2 chains, rfl, rfl⟩

theorem statementRule_abreast (fits : 3 * n + 1 ≤ deep) :
    Grammar.Abreast r n (fun m s t => m < n ∧ ActionLike r.likeness s t) one.statementRule
      two.statementRule := by
  unfold statementRule
  refine .peek_bind fun t u pair opens => ?_
  rw [← Reading.terminal_eq pair]
  have some {terminal : Terminal} (found : t.terminal? = some terminal) : 0 < n := by
    refine opens ?_
    unfold Token.terminal? at found
    unfold Token.isEnd
    split
    · next ends =>
        rw [ends] at found
        cases found
    · rfl
  split
  · next found =>
      refine .advance_bind (some found) fun m fewer => ?_
      exact (forStatement_abreast abreast (by omega)).imp fun k s t _ read => ⟨by omega, read.2⟩
  · next found =>
      refine .advance_bind (some found) fun m fewer => ?_
      exact (ifStatement_abreast abreast (by omega)).imp fun k s t _ read => ⟨by omega, read.2⟩
  · next found =>
      refine .advance_bind (some found) fun m fewer => ?_
      exact (block_abreast abreast (by omega)).fmap _ _ fun k ss ts _ read =>
        ⟨by omega, .block read.2, rfl, rfl⟩
  · next found =>
      refine .advance_bind (some found) fun m fewer => ?_
      exact (switchStatement_abreast abreast (by omega) pair).imp fun k s t _ read =>
        ⟨by omega, read.2⟩
  · next found =>
      refine .advance_bind (some found) fun m fewer => ?_
      exact (printStatement_abreast abreast (by omega)).imp fun k s t _ read =>
        ⟨by omega, read.2⟩
  · next found =>
      refine .advance_bind (some found) fun m fewer => ?_
      exact (returnStatement_abreast abreast (by omega) pair).imp fun k s t _ read =>
        ⟨by omega, read.2⟩
  · next found =>
      refine .advance_bind (some found) fun m fewer => ?_
      exact (whileStatement_abreast abreast (by omega)).imp fun k s t _ read =>
        ⟨by omega, read.2⟩
  · exact expressionStatement_abreast abreast fits

end Statements

section Declarations

theorem field_abreast (fits : 3 * n ≤ deep) (explicit : Bool) :
    Grammar.Abreast r n (fun m f g => m < n ∧ FieldDecl.Like r.likeness f g)
      (one.field explicit) (two.field explicit) := by
  unfold field
  refine .expect_bind _ _ fun m name name' fewer names _ => ?_
  refine (initializer_abreast abreast (by omega)).bind fun k initial initial' _ initials => ?_
  refine .expect_bind _ _ fun l _ _ less _ _ => .pure ⟨by omega, ?_⟩
  cases initials with
  | none => exact .cons names .nil
  | some values => exact .consInitial names values .nil

theorem memberRound_abreast (m : Nat) (fits : 3 * m ≤ deep) (found other : Members)
    (alike : MembersLike r.likeness found other) :
    Grammar.Abreast r m (Kept (MembersLike r.likeness) (fun _ => MembersLike r.likeness) m)
      (one.memberRound found) (two.memberRound other) := by
  unfold memberRound
  refine .check_bind _ fun closed _ => ?_
  refine .atEnd_bind fun ended _ => ?_
  split
  · exact .pure alike
  · have rest (k : Nat) (few : k ≤ m) (explicit : Bool) :
        Grammar.Abreast r k (Kept (MembersLike r.likeness) (fun _ => MembersLike r.likeness) m)
          (do
            if !explicit && (← Rule.check .name) && (← Rule.checkSecond (.symbol .leftParen)) then
              let name ← Rule.peek
              Rule.advance
              let method ← one.functionBody (some name) (methodKind name)
              return .again { found with methods := method :: found.methods }
            else
              let field ← one.field explicit
              return .again { found with fields := field :: found.fields })
          (do
            if !explicit && (← Rule.check .name) && (← Rule.checkSecond (.symbol .leftParen)) then
              let name ← Rule.peek
              Rule.advance
              let method ← two.functionBody (some name) (methodKind name)
              return .again { other with methods := method :: other.methods }
            else
              let field ← two.field explicit
              return .again { other with fields := field :: other.fields }) := by
      refine .check_bind _ fun isNamed some => ?_
      refine .checkSecond_bind _ fun isMethod => ?_
      split
      · next isMember =>
          refine .peek_bind fun name name' names _ => ?_
          refine .advance_bind (some (by simp_all)) fun l fewer => ?_
          have kinds : methodKind name = methodKind name' := by
            unfold methodKind
            rw [(r.same _ _ names).2]
          rw [kinds]
          refine (functionBody_abreast abreast (by omega) (.some names) _).map _ _
            fun j method method' _ methods => ?_
          exact ⟨by omega, alike.fields, .cons methods.2 alike.methods⟩
      · refine (field_abreast abreast (by omega) explicit).map _ _ fun j field field' _ fields => ?_
        exact ⟨by omega, .cons fields.2 alike.fields, alike.methods⟩
    exact .accept_bind _ (fun k fewer => rest k (by omega) true) (rest m (Nat.le_refl m) false)

theorem classDeclaration_abreast (fits : 3 * n ≤ deep) :
    Grammar.Abreast r n (fun m s t => m < n ∧ Stmt.Like r.likeness s t) one.classDeclaration
      two.classDeclaration := by
  have bound := abreast.bound
  have limit := abreast.limit
  unfold classDeclaration
  refine .expect_bind _ _ fun m name name' fewer names _ => ?_
  refine .fresh_bind fun id id' counted => ?_
  refine .fresh_bind fun thisId thisId' receivers => ?_
  refine .expect_bind _ _ fun k _ _ less _ _ => ?_
  refine (Grammar.Abreast.iterate (by omega) (by omega) ⟨.nil, .nil⟩ fun i s t few =>
    memberRound_abreast abreast i (by omega) s t).bind fun l found found' few members => ?_
  refine .expect_bind _ _ fun j _ _ closed _ _ => .pure ⟨by omega, ?_⟩
  exact .classDecl ⟨counted, names⟩ names receivers (.of_forall (List.rel_reverse members.fields))
    (.of_forall (List.rel_reverse members.methods))

theorem functionDeclaration_abreast (fits : 3 * n ≤ deep) :
    Grammar.Abreast r n (fun m s t => m < n ∧ Stmt.Like r.likeness s t) one.functionDeclaration
      two.functionDeclaration := by
  unfold functionDeclaration
  refine .expect_bind _ _ fun m name name' fewer names _ => ?_
  refine .fresh_bind fun id id' counted => ?_
  refine (functionBody_abreast abreast (by omega) (.some names) _).map _ _
    fun k decl decl' _ decls => ?_
  exact ⟨by omega, .function ⟨counted, names⟩ decls.2⟩

theorem declarationOrStatement_abreast (fits : 3 * n + 2 ≤ deep) :
    Grammar.Abreast r n (fun m s t => m < n ∧ Stmt.Like r.likeness s t)
      one.declarationOrStatement two.declarationOrStatement := by
  unfold declarationOrStatement
  refine .accept_bind _ (fun m fewer => ?_) ?_
  · exact (varDeclaration_abreast abreast (by omega)).imp fun k s t _ read =>
      ⟨by omega, read.2⟩
  refine .accept_bind _ (fun m fewer => ?_) ?_
  · exact (classDeclaration_abreast abreast (by omega)).imp fun k s t _ read =>
      ⟨by omega, read.2⟩
  refine .check_bind _ fun isFun some => ?_
  refine .checkSecond_bind _ fun isNamed => ?_
  split
  · next isDeclaration =>
      refine .advance_bind (some (by simp_all)) fun m fewer => ?_
      exact (functionDeclaration_abreast abreast (by omega)).imp fun k s t _ read =>
        ⟨by omega, read.2⟩
  · exact (abreast.statement n fits).imp fun k s t _ read => ⟨read.1, read.2.1⟩

theorem declarationRule_abreast (fits : 3 * n + 2 ≤ deep) :
    Grammar.Abreast r n (fun m s t => (0 < n → m < n) ∧ Option.Rel (Stmt.Like r.likeness) s t)
      one.declarationRule two.declarationRule :=
  recover_abreast (declarationOrStatement_abreast abreast fits)

end Declarations

end Rules

/-! ### Programs -/

variable {r : Reading}

theorem rulesAt_abreast : ∀ (deep : Nat) {depth other : Nat}, deep ≤ depth → deep ≤ other →
    Rules.Abreast r deep (rulesAt depth) (rulesAt other)
  | 0, depth, other, _, _ =>
      ⟨Nat.zero_le _, Nat.zero_le _, fun _ _ impossible => absurd impossible (Nat.not_succ_le_zero _),
        fun _ impossible => absurd impossible (Nat.not_succ_le_zero _),
        fun _ impossible => absurd impossible (Nat.not_succ_le_zero _)⟩
  | deep + 1, depth + 1, other + 1, enough, also => by
      have abreast := rulesAt_abreast deep (Nat.le_of_succ_le_succ enough)
        (Nat.le_of_succ_le_succ also)
      refine ⟨enough, also, fun n min fits => ?_, fun n fits => ?_, fun n fits => ?_⟩
      · exact Rules.expressionAt_abreast abreast min (Nat.le_of_succ_le_succ fits)
      · exact (Rules.statementRule_abreast abreast (Nat.le_of_succ_le_succ fits)).imp
          fun m s t _ read => ⟨read.1, read.2.like, read.2.bare, read.2.otherBare⟩
      · exact Rules.declarationRule_abreast abreast (Nat.le_of_succ_le_succ fits)

theorem programRound_abreast {deep depth other m : Nat} (enough : deep ≤ depth)
    (also : deep ≤ other) (fits : 3 * m + 3 ≤ deep) (found found' : List Stmt)
    (alike : List.Forall₂ (Stmt.Like r.likeness) found found') :
    Abreast r m (Abreast.Kept (List.Forall₂ (Stmt.Like r.likeness))
      (fun _ => Stmts.Like r.likeness) m) (programRound depth found)
      (programRound other found') := by
  unfold programRound
  refine .atEnd_bind fun ended some => ?_
  cases ended with
  | true => exact .pure (.of_forall (List.rel_reverse alike))
  | false =>
      refine ((rulesAt_abreast deep enough also).declaration m fits).bind fun k s t _ read => ?_
      obtain ⟨fewer, same⟩ := read
      cases same with
      | none => exact .pure ⟨fewer (some rfl), alike⟩
      | some same => exact .pure ⟨fewer (some rfl), .cons same alike⟩

theorem program_abreast (n : Nat) :
    Abreast r n (fun _ => Stmts.Like r.likeness) program program := by
  intro c d like same
  have depths : d.depth = c.depth := by
    unfold Cursor.depth
    rw [like.pending.length_eq]
  have enough : 3 * n + 3 ≤ c.depth := by
    unfold Cursor.depth depthFor
    omega
  unfold program
  rw [depths]
  exact Abreast.iterate (by omega) (by omega) .nil (fun m s t few =>
    programRound_abreast (Nat.le_refl _) (Nat.le_refl _) (by omega) s t) c d like same

/-- What two corresponding rows of tokens say: corresponding statements, or the same faults at
corresponding tokens. -/
structure ParsesAlike (r : Reading) (one two : Parse) : Prop where
  statements : Stmts.Like r.likeness one.statements two.statements
  recorded : List.Forall₂ (SyntaxError.Like r) one.recorded two.recorded
  fatal : Option.Rel (SyntaxError.Like r) one.fatal two.fatal
  nextId : r.counted one.nextId two.nextId

theorem Cursor.Like.parse {c d : Cursor} (like : c.Like r d) :
    ParsesAlike r c.parse d.parse := by
  have meets := program_abreast c.pending.length c d like rfl
  unfold Cursor.parse
  generalize program c = x at meets
  generalize program d = y at meets
  cases meets with
  | ok alike reaches statements =>
      exact ⟨statements, List.rel_reverse alike.recorded, .none, alike.nextId⟩
  | error alike reaches errors =>
      exact ⟨.nil, List.rel_reverse alike.recorded, .some errors, alike.nextId⟩

end Grammar
end Lox
