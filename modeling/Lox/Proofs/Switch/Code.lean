import Lox.Proofs.Blame.Reading
import Lox.Proofs.Derivation.Program
import Lox.Proofs.Switch.Direct

set_option autoImplicit false

/-! Code as it is read. No name that stands in a source is spelled like a hidden variable, so what begins with
one is a switch that has been written out, and what compares one is an arm of it. -/

namespace Lox

/-- Code as it is read: no name that stands in it is spelled like a hidden variable. -/
def Likeness.plain : Likeness where
  token := Eq
  named id name other otherName := id = other ∧ name = otherName ∧ name.Plain
  node := Eq
  hidden := Eq

theorem Likeness.plain_exact : Likeness.plain.Exact :=
  ⟨fun _ _ => id, fun _ _ _ _ both => ⟨both.1, both.2.1⟩, fun _ _ => id, fun _ _ => id⟩

/-- What is read from plain tokens. -/
theorem Reading.alone_le_plain {tokens : List Token} {first : NodeId} (plain : ∀ t ∈ tokens, t.Plain) :
    (Reading.alone tokens first).likeness.Le .plain where
  token _ _ pair := pair.1
  named _ name _ _ both := ⟨eq_of_counted both.1, both.2.1, plain name both.2.2⟩
  node _ _ := eq_of_counted
  hidden _ _ := eq_of_counted

namespace Grammar

/-- A switch statement, with its subject, its arms in the order of the source, and its default action. -/
inductive Derives.Switch (stop : Token) :
    Place → Stmt → Expr → List (Expr × Stmt) → Option Stmt → Place → Prop
  | mk {p q r s t u v w x : Place} {keyword left right leftBrace rightBrace : Token} {id : NodeId}
      {subject : Expr} {arms : List (Expr × Stmt)} {default : Option Stmt}
      (opens : Passes (.keyword .switchWord) p keyword q)
      (leftParen : Passes (.symbol .leftParen) q left r) (value : Expression stop r subject s)
      (rightParen : Passes (.symbol .rightParen) s right t) (node : Numbers t id u)
      (begins : Passes (.symbol .leftBrace) u leftBrace v) (choices : Arms stop v arms default w)
      (ends : Passes (.symbol .rightBrace) w rightBrace x) :
      Switch stop p (switchImage id keyword subject x.nextId arms default) subject arms default
        ⟨x.tokens, x.nextId + arms.length⟩

theorem Derives.Switch.statement {stop : Token} {p q : Place} {s : Stmt} {subject : Expr}
    {arms : List (Expr × Stmt)} {default : Option Stmt}
    (written : Switch stop p s subject arms default q) : Statement stop p s q := by
  cases written with
  | mk opens leftParen value rightParen node begins choices ends =>
    exact .switch opens leftParen value rightParen node begins choices ends

theorem parse_plain {tokens : List Token} (plain : ∀ t ∈ tokens, t.Plain)
    (ends : ∃ token ∈ tokens, token.isEnd = true) (first : NodeId) :
    Stmts.Like .plain (parse tokens first).statements (parse tokens first).statements :=
  (parse_alone ends first).statements.mono (Reading.alone_le_plain plain)

section

open Derives (Passes Expression Statement Arms)

variable {stop : Token} (ends : stop.isEnd = true) {p q : Place}

theorem passes_suffix {terminal : Terminal} {token : Token} (passes : Passes terminal p token q) :
    q.tokens <:+ p.tokens := by
  rw [passes.2]
  exact List.suffix_cons token q.tokens

theorem plain_of_suffix {tokens more : List Token} (suffix : tokens <:+ more)
    (plain : ∀ t ∈ stop :: more, t.Plain) : ∀ t ∈ stop :: tokens, t.Plain := by
  obtain ⟨own, others⟩ := List.forall_mem_cons.mp plain
  exact List.forall_mem_cons.mpr ⟨own, fun t member => others t (suffix.subset member)⟩

theorem numbers_suffix {id : NodeId} (node : Derives.Numbers p id q) : q.tokens <:+ p.tokens := by
  obtain ⟨-, rfl⟩ := node
  exact List.suffix_rfl

include ends

theorem Place.cursor_alone (p : Place) :
    (p.cursor stop).Like (Reading.alone (stop :: p.tokens) p.nextId) (p.cursor stop) where
  pending := List.forall₂_same.mpr fun _ member => ⟨rfl, List.mem_cons_of_mem _ member⟩
  stop := ⟨rfl, List.mem_cons_self⟩
  ends := ends
  nextId := ⟨0, rfl, rfl⟩
  recorded := .nil

theorem expression_suffix {e : Expr} (read : Expression stop p e q) : q.tokens <:+ p.tokens := by
  have deep := Nat.le_refl (3 * p.tokens.length + 1)
  have done := ((rulesAt_speaks ends deep).expression deep).mpr read
  exact (Reading.self.reaches_of_ok ((rulesAt_abreast _ deep deep).expression p.tokens.length .lowest deep)
    ends rfl done).2.1.pending

/-- What is derived as a statement from plain tokens is code as it is read. -/
theorem statement_plain (plain : ∀ t ∈ stop :: p.tokens, t.Plain) {s : Stmt}
    (derived : Statement stop p s q) : Stmt.Like .plain s s ∧ q.tokens <:+ p.tokens := by
  have deep := Nat.le_refl (3 * p.tokens.length + 2)
  have done := ((rulesAt_speaks ends deep).statement deep).mpr derived
  have meets := (rulesAt_abreast _ deep deep).statement p.tokens.length deep _ _ (p.cursor_alone ends) rfl
  rw [done] at meets
  cases meets with
  | ok like reaches isGood => exact ⟨isGood.2.1.mono (Reading.alone_le_plain plain), reaches.pending⟩

/-- The action of a default arm, wherever it stands among the arms. -/
theorem default_plain : ∀ {p q : Place} {arms : List (Expr × Stmt)} {default : Option Stmt},
    Arms stop p arms default q → (∀ t ∈ stop :: p.tokens, t.Plain) →
      ∀ action, default = some action → Stmt.Like .plain action action
  | _, _, _, _, .nil _, _, _, impossible => nomatch impossible
  | _, _, _, _, .arm read _ separator chosen rest, plain, action, same => by
    have before := (passes_suffix separator).trans (expression_suffix ends read)
    have inAction := plain_of_suffix before plain
    have after := (statement_plain ends inAction chosen).2
    exact default_plain rest (plain_of_suffix after inAction) action same
  | _, _, _, _, .default read _ separator chosen rest, plain, action, same => by
    have before := (passes_suffix separator).trans (expression_suffix ends read)
    cases same
    exact (statement_plain ends (plain_of_suffix before plain) chosen).1

end

end Grammar

namespace Direct

open Grammar

theorem hides_of_plain (id : NodeId) {name : Token} (plain : name.Plain) : hides id name = false :=
  beq_false_of_ne (plain id name)

/-- What stands in a source is no arm. -/
theorem isArm_of_like (id : NodeId) {s s' : Stmt} (alike : Stmt.Like .plain s s') : isArm id s = false := by
  have test {condition condition' : Expr} (conditions : Expr.Like .plain condition condition')
      (action : Stmt) (rest : Option Stmt) : isArm id (.branch condition action rest) = false := by
    cases conditions with
    | binary lefts operators rights =>
      cases lefts with
      | name names => exact hides_of_plain id names.2.2
      | _ => rfl
    | _ => rfl
  cases alike with
  | branch conditions thens => exact test conditions _ none
  | branchElse conditions thens elses => exact test conditions _ (some _)
  | _ => rfl

/-- A block that does not begin with a hidden variable is no switch. -/
theorem block_of_plain (ctx : Context) (all : Exec Flow) {body : List Stmt}
    (plain : ∀ id name initial rest, body = .var id name initial :: rest → name.Plain) :
    block ctx all body = all := by
  cases body with
  | nil => rfl
  | cons first rest =>
    cases first with
    | var id name initial =>
      cases initial with
      | none => rfl
      | some subject =>
        unfold block
        rw [hides_of_plain id (plain id name _ rest rfl)]
        rfl
    | _ => rfl

theorem stmt_block (ctx : Context) {body : List Stmt}
    (plain : ∀ id name initial rest, body = .var id name initial :: rest → name.Plain) :
    stmt ctx (.block body) = (do Exec.within (← Exec.capture) (stmts ctx body)) := by
  unfold stmt
  rw [block_of_plain ctx _ plain]

theorem plain_of_like {body body' : List Stmt} (alike : Stmts.Like .plain body body') (id : NodeId)
    (name : Token) (initial : Option Expr) (rest : List Stmt) (same : body = .var id name initial :: rest) :
    name.Plain := by
  cases same
  cases alike with
  | cons head tail =>
    cases head with
    | var names => exact names.2.2
    | varInitial names initials => exact names.2.2

/-- A switch that stands in a source is run as that switch. -/
theorem stmt_of_switch (ctx : Context) {stop : Token} (ends : stop.isEnd = true) {p q : Grammar.Place}
    (plain : ∀ t ∈ stop :: p.tokens, t.Plain) {s : Stmt} {subject : Expr} {arms : List (Expr × Stmt)}
    {default : Option Stmt} (written : Derives.Switch stop p s subject arms default q) :
    stmt ctx s = switch ctx subject arms default := by
  cases written with
  | mk opens leftParen value rightParen node begins choices ends' =>
    have inSubject := (passes_suffix leftParen).trans (passes_suffix opens)
    have after := (passes_suffix rightParen).trans ((expression_suffix ends value).trans inSubject)
    have numbered := (numbers_suffix node).trans after
    have inArms := (passes_suffix begins).trans numbered
    have actions := default_plain ends choices (plain_of_suffix inArms plain)
    exact stmt_switchImage ctx _ _ subject _ arms fun action same =>
      isArm_of_like _ (actions action same)

end Direct

end Lox
