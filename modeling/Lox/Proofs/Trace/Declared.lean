import Lox.Proofs.Trace.Globals
import Lox.Proofs.Trace.Restore

set_option autoImplicit false

/-! The global variables of a session are those that its declarations outside all blocks have made: at
every moment of every run their names are the names of the declarations that have been executed, in
this run and before, and the root frame is empty. -/

namespace Lox

variable {α β : Type} {known : Site → Prop}

/-- The names that a statement declares in the scope in which it stands. -/
def Stmt.names (s : Stmt) : List String :=
  s.declared.map (·.name)

namespace Moment

/-- The global variables are those that have been declared, and the root frame is empty. -/
structure Agrees (known : Site → Prop) (moment : Moment) : Prop where
  secluded : moment.machine.Secluded known
  keys : ∀ name, name ∈ moment.machine.environment.globals.keys ↔ name ∈ moment.declared

/-- The first few of some names have been declared since certain others were. -/
structure Amid (known : Site → Prop) (names before : List String) (moment : Moment) : Prop where
  agrees : moment.Agrees known
  declared : ∃ done, done <+: names ∧ moment.declared = done.reverse ++ before

variable {names more before : List String} {moment : Moment}

theorem Amid.first (amid : moment.Amid known names before) (more : List String) :
    moment.Amid known (names ++ more) before := by
  obtain ⟨agrees, done, first, same⟩ := amid
  exact ⟨agrees, done, first.trans (List.prefix_append names more), same⟩

theorem Amid.later (amid : moment.Amid known more (names.reverse ++ before)) :
    moment.Amid known (names ++ more) before := by
  obtain ⟨agrees, done, first, same⟩ := amid
  refine ⟨agrees, names ++ done, (List.prefix_append_right_inj names).mpr first, ?_⟩
  rw [same, List.reverse_append, List.append_assoc]

theorem Agrees.amid (agrees : moment.Agrees known) (names : List String) :
    moment.Amid known names moment.declared :=
  ⟨agrees, [], List.nil_prefix, rfl⟩

end Moment

/-- No declaration is ever taken back. -/
def Record.Ordered (r : Record) : Prop :=
  r.moments.Pairwise fun later earlier => earlier.declared <:+ later.declared

namespace Record

variable {r after : Record}

theorem Ordered.next {moment : Moment} (ordered : r.Ordered)
    (grows : r.now.declared <:+ moment.declared) : (r.next moment).Ordered := by
  refine List.Pairwise.cons (fun earlier member => ?_) ordered
  rcases List.mem_cons.mp member with rfl | past
  · exact grows
  · exact (List.rel_of_pairwise_cons ordered past).trans grows

/-- Code that declares nothing takes no declaration back. -/
theorem Ordered.since (ordered : r.Ordered)
    (since : r.Since (fun moment => moment.declared = r.now.declared) after) : after.Ordered := by
  obtain ⟨later, same, still⟩ := since
  unfold Ordered
  rw [same, List.pairwise_append]
  refine ⟨?_, ordered, fun moment member earlier before => ?_⟩
  · apply List.Pairwise.imp_of_mem _ (List.pairwise_of_forall (R := fun _ _ => True)
      fun _ _ => trivial)
    intro one two inOne inTwo _
    have equal : two.declared = one.declared := (still two inTwo).trans (still one inOne).symm
    exact equal ▸ List.suffix_refl two.declared
  · rw [still moment member]
    rcases List.mem_cons.mp before with rfl | past
    · exact List.suffix_refl _
    · exact List.rel_of_pairwise_cons ordered past

end Record

/-- A part of a program outside all blocks that declares some names, one after the other. -/
structure Advances (known : Site → Prop) (names : List String) (r : Record) (traced : Traced α) :
    Prop where
  now : (Outcome.state (traced r)).now.Amid known names r.now.declared
  since : r.Since (Moment.Amid known names r.now.declared) (Outcome.state (traced r))
  ordered : r.Ordered → (Outcome.state (traced r)).Ordered

/-- A part that has declared all its names when it comes to its end. -/
structure Completes (known : Site → Prop) (names : List String) (r : Record) (traced : Traced α) :
    Prop extends Advances known names r traced where
  whole : ∀ a after, traced r = .ok a after → after.now.declared = names.reverse ++ r.now.declared

section

variable {r : Record} {traced : Traced α} {names more : List String}

theorem Advances.pure {a : α} (agrees : r.now.Agrees known) :
    Advances known names r (return a) :=
  ⟨agrees.amid names, Record.Since.refl r, id⟩

namespace Completes

theorem pure {a : α} (agrees : r.now.Agrees known) : Completes known [] r (return a) := by
  refine ⟨Advances.pure agrees, fun b after same => ?_⟩
  cases same
  rfl

/-- Code that is not outermost declares nothing. -/
theorem of_secludes {limit : Nat} {plain : Exec α} (tracks : Tracks limit r traced plain)
    (secludes : Secludes known r traced) (agrees : r.now.Agrees known) :
    Completes known [] r traced := by
  have keeps (moment : Moment) (retains : r.now.machine.Retains known moment.machine)
      (declared : moment.declared = r.now.declared) : moment.Amid known [] r.now.declared := by
    refine ⟨⟨retains.secluded, fun name => ?_⟩, [], List.nil_prefix, declared⟩
    rw [retains.keys, declared]
    exact agrees.keys name
  have leads := tracks.leads
  constructor
  · constructor
    · exact keeps _ secludes.now leads.declared
    · obtain ⟨later, same, retains⟩ := secludes.since
      obtain ⟨others, sameOthers, inside⟩ := leads.since
      have equal : others = later := List.append_cancel_right (sameOthers.symm.trans same)
      subst equal
      exact ⟨others, same, fun moment member =>
        keeps moment (retains moment member) (inside moment member).1⟩
    · exact fun ordered => ordered.since (leads.since.imp fun _ inside => inside.1)
  · intro a after result
    rw [result] at leads
    exact leads.declared

end Completes

/-- After a part that has declared its names another part goes on. -/
theorem Advances.bind {first : α → Traced β} (one : Completes known names r traced)
    (two : ∀ a after, traced r = .ok a after → after.now.Agrees known →
      Advances known more after (first a)) :
    Advances known (names ++ more) r (traced >>= first) := by
  obtain ⟨⟨now, since, ordered⟩, whole⟩ := one
  cases result : traced r with
  | ok a middle =>
      rw [result] at now since ordered
      have all := whole a middle result
      obtain ⟨nowLast, sinceLast, orderedLast⟩ := two a middle result now.agrees
      rw [all] at nowLast sinceLast
      constructor
      · rw [Outcome.bind_of_ok result]
        exact nowLast.later
      · rw [Outcome.bind_of_ok result]
        exact (since.imp fun _ amid => amid.first more).trans
          (sinceLast.imp fun _ amid => amid.later)
      · rw [Outcome.bind_of_ok result]
        exact fun before => orderedLast (ordered before)
  | error stop middle =>
      rw [result] at now since ordered
      constructor
      · rw [Outcome.bind_of_error result]
        exact now.first more
      · rw [Outcome.bind_of_error result]
        exact since.imp fun _ amid => amid.first more
      · rw [Outcome.bind_of_error result]
        exact ordered

theorem Completes.bind {first : α → Traced β} (one : Completes known names r traced)
    (two : ∀ a after, traced r = .ok a after → after.now.Agrees known →
      Completes known more after (first a)) :
    Completes known (names ++ more) r (traced >>= first) := by
  refine ⟨Advances.bind one fun a after result agrees => (two a after result agrees).toAdvances, ?_⟩
  intro b last done
  obtain ⟨a, middle, result, rest⟩ := Outcome.ok_of_bind done
  have agrees : middle.now.Agrees known := by
    have now := one.now
    rw [result] at now
    exact now.agrees
  rw [(two a middle result agrees).whole b last rest, one.whole a middle result,
    List.reverse_append, List.append_assoc]

end

namespace Traced

variable {ctx : Context} {r : Record}

/-- A declaration outside all blocks makes a global variable, and nothing else. -/
theorem enter_completes {id : NodeId} {name : Token}
    (isKnown : Site.Bound ctx.bindings ⟨[], .declaration id name⟩) (agrees : r.now.Agrees known)
    (value : Value) : Completes known [name.lexeme] r (enter ctx id name value) := by
  have free : ctx.bindings.slot? id = none := Option.isNone_iff_eq_none.mp
    (Option.isSome_eq_false_iff.mp isKnown)
  let m := r.now.machine
  let after : Record := r.next ⟨{ m with environment := m.environment.defineGlobal name.lexeme value },
    name.lexeme :: r.now.declared⟩
  have done : enter ctx id name value r = .ok () after := by
    unfold enter Exec.declare
    rw [free]
  have amid : after.now.Amid known [name.lexeme] r.now.declared := by
    refine ⟨⟨agrees.secluded.of_eq rfl rfl rfl, fun other => ?_⟩, [name.lexeme],
      List.prefix_refl _, rfl⟩
    refine (Table.mem_keys_insert _ _ _ _).trans ?_
    rw [agrees.keys other]
    exact List.mem_cons.symm
  constructor
  · constructor
    · rw [done]
      exact amid
    · rw [done]
      exact Record.Since.next amid
    · rw [done]
      exact fun ordered => ordered.next (List.suffix_cons _ _)
  · intro a last result
    rw [done] at result
    cases result
    rfl

variable {call : Calls} (vouched : ∀ site, known site → site.Bound ctx.bindings)
  (calls : Follows ctx call) (secludes : Discreet known call)
include vouched calls secludes

/-- A statement that declares nothing. -/
theorem stmt_completes {s : Stmt} (idle : s.declared = [])
    (sites : ∀ site ∈ Sites.stmt [] s, known site) (regular : Regular.stmt s)
    (agrees : r.now.Agrees known) : Completes known s.names r (stmt ctx call s) := by
  have none : s.names = [] := by
    rw [Stmt.names, idle]
    rfl
  rw [none]
  exact Completes.of_secludes (stmt_tracks calls s r)
    (stmt_secludes vouched calls secludes s [] r (.inl idle) sites regular
      ⟨agrees.secluded, nofun⟩) agrees

theorem outermost_completes (s : Stmt) (r : Record) (sites : ∀ site ∈ Sites.stmt [] s, known site)
    (regular : Regular.stmt s) (agrees : r.now.Agrees known) :
    Completes known s.names r (outermost ctx call s) := by
  cases s with
  | var id name initial =>
      cases initial with
      | none =>
          apply (enter_completes (vouched _ (sites _ List.mem_cons_self)) agrees .nil).bind
          exact fun _ _ _ there => Completes.pure there
      | some initial =>
          have inside : ∀ site ∈ Sites.expr [.initializer id name] initial, known site :=
            fun site member => sites site (List.mem_cons_of_mem _ member)
          have value := Completes.of_secludes (expr_tracks calls initial r)
            (expr_secludes vouched calls secludes initial _ r inside regular.2 agrees.secluded) agrees
          apply value.bind
          intro _ _ _ there
          apply (enter_completes (vouched _ (sites _ List.mem_cons_self)) there _).bind
          exact fun _ _ _ last => Completes.pure last
  | function id name decl =>
      have inside : ∀ site ∈ Sites.function .function [.own id name] decl, known site :=
        fun site member => sites site (List.mem_cons_of_mem _ member)
      have tracks : Tracks ctx.maxDepth r (step (Exec.close decl)) (Exec.close decl) :=
        Tracks.step ⟨rfl, rfl, rfl⟩
      have closed := Completes.of_secludes tracks
        (Secludes.step (Exec.retains_close agrees.secluded
          ⟨[.own id name], .function, inside, regular.2⟩)) agrees
      apply closed.bind
      intro _ _ _ there
      apply (enter_completes (vouched _ (sites _ List.mem_cons_self)) there _).bind
      exact fun _ _ _ last => Completes.pure last
  | «class» id name thisId fieldDecls methodDecls =>
      have inside := (List.forall_mem_append.mp fun site member =>
        sites site (List.mem_cons_of_mem _ member)).2
      have parts := List.forall_mem_append.mp fun site member =>
        inside site (List.mem_cons_of_mem _ member)
      apply (enter_completes (vouched _ (sites _ List.mem_cons_self)) agrees .nil).bind
      intro _ entered _ there
      have filled := Completes.of_secludes (fields_tracks calls fieldDecls Table.empty entered)
        (fields_secludes vouched calls secludes fieldDecls _ Table.empty entered parts.1 regular.2.1
          there.secluded) there
      apply filled.bind
      intro members last _ more
      exact Completes.of_secludes (makeClass_tracks id name thisId methodDecls members last)
        (makeClass_secludes id name thisId _ methodDecls parts.2 regular.2.2 members last
          more.secluded) more
  | branch condition thenBranch elseBranch =>
      cases elseBranch with
      | none => exact stmt_completes vouched calls secludes regular.2.2 sites regular agrees
      | some elseBranch =>
          apply stmt_completes vouched calls secludes _ sites regular agrees
          rw [Stmt.declared, regular.2.1.2, regular.2.2.2, List.append_nil]
  | loop condition body => exact stmt_completes vouched calls secludes regular.2.2 sites regular agrees
  | expression value => exact stmt_completes vouched calls secludes rfl sites regular agrees
  | print value => exact stmt_completes vouched calls secludes rfl sites regular agrees
  | block body => exact stmt_completes vouched calls secludes rfl sites regular agrees
  | ret keyword value => exact stmt_completes vouched calls secludes rfl sites regular agrees

theorem sequence_advances (ss : List Stmt) (r : Record)
    (sites : ∀ site ∈ Sites.program ss, known site) (regular : Regular.stmts ss)
    (agrees : r.now.Agrees known) :
    Advances known (ss.flatMap Stmt.names) r (sequence ctx call ss) := by
  induction ss generalizing r with
  | nil => exact Advances.pure agrees
  | cons s rest ih =>
      have parts := List.forall_mem_append.mp sites
      rw [List.flatMap_cons]
      apply Advances.bind (outermost_completes vouched calls secludes s r parts.1 regular.1 agrees)
      intro flow middle _ there
      cases flow with
      | normal => exact ih middle parts.2 regular.2 there
      | returned value => exact Advances.pure there

end Traced

namespace Traced

variable {ctx : Context} {call : Calls} {r : Record}

theorem forget_bind {traced : Traced α} {plain : Exec α} {first : α → Traced β}
    {second : α → Exec β} (one : forget (traced r) = plain r.now.machine)
    (two : ∀ a after, forget (first a after) = second a after.now.machine) :
    forget ((traced >>= first) r) = (plain >>= second) r.now.machine := by
  cases result : traced r with
  | ok a middle =>
      rw [result] at one
      rw [Outcome.bind_of_ok result, Outcome.bind_of_ok one.symm]
      exact two a middle
  | error stop middle =>
      rw [result] at one
      rw [Outcome.bind_of_error result, Outcome.bind_of_error one.symm]
      rfl

theorem forget_enter (id : NodeId) (name : Token) (value : Value) (r : Record) :
    forget (enter ctx id name value r) = Exec.declare ctx id name value r.now.machine := by
  unfold enter Exec.declare
  cases ctx.bindings.slot? id <;> rfl

variable (calls : Follows ctx call)
include calls

theorem forget_outermost (s : Stmt) (r : Record) :
    forget (outermost ctx call s r) = Exec.stmt ctx s r.now.machine := by
  cases s with
  | var id name initial =>
      cases initial with
      | none => exact forget_bind (forget_enter id name .nil r) fun _ _ => rfl
      | some initial =>
          apply forget_bind (expr_tracks calls initial r).same
          exact fun value middle => forget_bind (forget_enter id name value middle) fun _ _ => rfl
  | function id name decl =>
      have closed : Tracks ctx.maxDepth r (step (Exec.close decl)) (Exec.close decl) :=
        Tracks.step ⟨rfl, rfl, rfl⟩
      apply forget_bind closed.same
      exact fun value middle => forget_bind (forget_enter id name value middle) fun _ _ => rfl
  | «class» id name thisId fieldDecls methodDecls =>
      apply forget_bind (forget_enter id name .nil r)
      intro _ entered
      apply forget_bind (fields_tracks calls fieldDecls Table.empty entered).same
      exact fun members last => (makeClass_tracks id name thisId methodDecls members last).same
  | _ => exact (stmt_tracks calls _ r).same

theorem forget_sequence (ss : List Stmt) (r : Record) :
    forget (sequence ctx call ss r) = Exec.stmts ctx ss r.now.machine := by
  induction ss generalizing r with
  | nil => rfl
  | cons s rest ih =>
      apply forget_bind (forget_outermost calls s r)
      intro flow middle
      cases flow with
      | normal => exact ih middle
      | returned value => rfl

omit calls in
theorem flush_same (r : Record) : forget (flush r) = Exec.flush r.now.machine := by
  have tracks : Tracks 0 r flush Exec.flush := Tracks.step (Exec.stays_flush)
  exact tracks.same

/-- The record of a program changes nothing. -/
theorem forget_program (ss : List Stmt) (r : Record) :
    forget (program ctx call ss r) = Exec.program ctx ss r.now.machine := by
  have same := forget_sequence calls ss r
  unfold program Exec.program
  cases result : sequence ctx call ss r with
  | ok flow last =>
      rw [result] at same
      rw [← same]
      exact flush_same last
  | error stop last =>
      rw [result] at same
      rw [← same]
      cases stop with
      | exhausted => rfl
      | error e =>
          have flushed := flush_same last
          simp only [forget]
          rw [← flushed]
          cases flush last <;> rfl

end Traced
end Lox
