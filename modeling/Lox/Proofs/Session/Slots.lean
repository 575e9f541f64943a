import Lox.Proofs.Scope.Sight
import Lox.Proofs.Session.Rounds

set_option autoImplicit false

/-! Slots over a session. Whatever runs a session has seen, no node number was given out twice, no two
declarations share a slot, and what an accepted program was given stays as it is; a program that was
not accepted has left nothing. -/

namespace Lox

namespace Session

/-- Sessions that are reached by runs, with what each of the runs did about nodes and bindings. -/
inductive Recalls : List Round → Session → Prop
  | new (config : Config) (output errors : Sink) : Recalls [] (Session.new config output errors)
  | run {rounds : List Round} {s after : Session} {exit : Option Exit} (bound : Nat)
      (source : String) (before : Recalls rounds s) (ran : s.run bound source = some (exit, after)) :
      Recalls (rounds ++ [s.round source]) after
  | resetScopes {rounds : List Round} {s : Session} (before : Recalls rounds s) :
      Recalls rounds s.resetScopes

/-- One session becomes another by further runs. -/
inductive Continues : Session → Session → Prop
  | refl (s : Session) : Continues s s
  | run {s middle after : Session} {exit : Option Exit} (bound : Nat) (source : String)
      (before : Continues s middle) (ran : middle.run bound source = some (exit, after)) :
      Continues s after
  | resetScopes {s middle : Session} (before : Continues s middle) :
      Continues s middle.resetScopes

/-- A node that some of the programs declare, locally or not. -/
def DeclaredIn (rounds : List Round) (id : NodeId) : Prop :=
  ∃ round ∈ rounds, Sites.Declares (Sites.program round.program) id

/-- What holds of the bindings of a session whose runs did certain things. -/
structure Tables (rounds : List Round) (s : Session) : Prop where
  fits : ∀ round ∈ rounds, Grammar.Fit.stmts round.first round.last round.program
  ended : ∀ round ∈ rounds, round.last ≤ s.nextNode
  ordered : rounds.Pairwise fun earlier later => earlier.last ≤ later.first
  below : s.bindings.Below s.nextNode
  small : ∀ id slot, s.bindings.slot? id = some slot → slot < s.bindings.nextSlot
  bound : ∀ round ∈ rounds, round.ruling = .accepted →
    ∀ site ∈ Sites.program round.program, site.Bound s.bindings
  absent : ∀ round ∈ rounds, round.ruling ≠ .accepted →
    ∀ id, round.first ≤ id → id < round.last → s.bindings.slot? id = none
  apart : ∀ id other slot, DeclaredIn rounds id → DeclaredIn rounds other →
    s.bindings.slot? id = some slot → s.bindings.slot? other = some slot → id = other

end Session

variable {rounds : List Round} {s after : Session} {round : Round}

/-- What one round does to a table of bindings whose nodes lie below those of the round. -/
structure Round.Step (round : Round) (before after : Bindings) : Prop where
  same : ∀ id, id < round.first → after.slot? id = before.slot? id
  below : after.Below round.last
  up : before.nextSlot ≤ after.nextSlot
  absent : round.ruling ≠ .accepted →
    ∀ id, round.first ≤ id → id < round.last → after.slot? id = none
  recorded : round.ruling = .accepted → Recorded (Sites.program round.program) before after

theorem Session.Reads.step (reads : s.Reads round) (below : s.bindings.Below s.nextNode) :
    round.Step s.bindings (round.leave s.bindings) := by
  obtain ⟨first, fit, slots, accepted⟩ := reads
  rw [← first] at below
  have outside {id : NodeId} (other : id < round.first ∨ round.last ≤ id) :=
    resolve_outside fit below other
  have beyond (id : NodeId) (large : round.last ≤ id) :
      (resolve s.bindings round.program).2.slot? id = none :=
    (outside (.inr large)).trans (below id (Nat.le_trans fit.up large))
  unfold Round.leave
  cases ruled : round.ruling with
  | unresolved =>
    exact ⟨fun _ _ => rfl, fun id large => below id (Nat.le_trans fit.up large), Nat.le_refl _,
      fun _ id large _ => below id large, fun impossible => by cases ruled.symm.trans impossible⟩
  | accepted =>
    refine ⟨fun id small => outside (.inl small), beyond, slots,
      fun other => absurd ruled other, fun _ => ?_⟩
    exact resolve_recorded fit.numbered.nodup
      (fun id member => below id (fit.numbered.bounds member).1) (accepted ruled)
  | refused =>
    refine ⟨fun id small => ?_, fun id large => ?_, slots, fun _ id large _ => ?_,
      fun impossible => by cases ruled.symm.trans impossible⟩
    · rw [Bindings.slot?_forgetFrom, if_pos small]
      exact outside (.inl small)
    · rw [Bindings.slot?_forgetFrom, if_neg (Nat.not_lt.mpr (Nat.le_trans fit.up large))]
    · rw [Bindings.slot?_forgetFrom, if_neg (Nat.not_lt.mpr large)]

namespace Round.Step

variable {before later : Bindings}

theorem grows (step : round.Step before later) (below : before.Below round.first) :
    before.Grows later := by
  intro id slot known
  have small : id < round.first := by
    by_contra large
    rw [Bindings.Binds, below id (Nat.le_of_not_lt large)] at known
    cases known
  exact (step.same id small).trans known

/-- A slot that a round gives to one of its own nodes is new. -/
theorem range (step : round.Step before later) (below : before.Below round.first) {id : NodeId}
    {slot : Slot} (own : round.first ≤ id) (known : later.slot? id = some slot) :
    round.ruling = .accepted ∧ id ∈ Sites.nodes (Sites.program round.program) ∧
      before.nextSlot ≤ slot ∧ slot < later.nextSlot := by
  have inside : id < round.last := by
    by_contra large
    rw [step.below id (Nat.le_of_not_lt large)] at known
    cases known
  have accepted : round.ruling = .accepted := by
    by_contra other
    rw [step.absent other id own inside] at known
    cases known
  have recorded := step.recorded accepted
  have member : id ∈ Sites.nodes (Sites.program round.program) := by
    by_contra other
    rw [recorded.frame id other, below id own] at known
    cases known
  obtain ⟨declaration, declares, same⟩ :=
    Sites.declaration_of_mem_nodes recorded.bound member known
  exact ⟨accepted, member, recorded.range_of_declares declares same⟩

end Round.Step

namespace Session

theorem declared_append {id : NodeId} (declared : DeclaredIn (rounds ++ [round]) id) :
    DeclaredIn rounds id ∨ Sites.Declares (Sites.program round.program) id := by
  obtain ⟨other, member, declares⟩ := declared
  rcases List.mem_append.mp member with old | new
  · exact .inl ⟨other, old, declares⟩
  · exact .inr (List.mem_singleton.mp new ▸ declares)

namespace Tables

theorem new (config : Config) (output errors : Sink) :
    Tables [] (Session.new config output errors) where
  fits := nofun
  ended := nofun
  ordered := .nil
  below _ _ := rfl
  small _ _ known := nomatch known
  bound := nofun
  absent := nofun
  apart _ _ _ := fun ⟨_, member, _⟩ => nomatch member

theorem bounds_of_declared (tables : s.Tables rounds) {id : NodeId} (declared : DeclaredIn rounds id) :
    id < s.nextNode := by
  obtain ⟨round, member, declares⟩ := declared
  have own := declares.mem_nodes
  rw [Sites.nodes_program] at own
  exact Nat.lt_of_lt_of_le ((tables.fits round member).numbered.bounds own).2
    (tables.ended round member)

theorem first_le_of_declares (fit : Grammar.Fit.stmts round.first round.last round.program)
    {id : NodeId} (declares : Sites.Declares (Sites.program round.program) id) : round.first ≤ id := by
  have own := declares.mem_nodes
  rw [Sites.nodes_program] at own
  exact (fit.numbered.bounds own).1

/-- Old declarations have old slots and new ones have new slots. -/
theorem apart_of_step (tables : s.Tables rounds) (first : round.first = s.nextNode)
    (fit : Grammar.Fit.stmts round.first round.last round.program) {later : Bindings}
    (step : round.Step s.bindings later) (id other : NodeId) (slot : Slot)
    (one : DeclaredIn (rounds ++ [round]) id) (two : DeclaredIn (rounds ++ [round]) other)
    (known : later.slot? id = some slot) (same : later.slot? other = some slot) : id = other := by
  have below : s.bindings.Below round.first := first ▸ tables.below
  have old {id : NodeId} (declared : DeclaredIn rounds id) (known : later.slot? id = some slot) :
      s.bindings.slot? id = some slot :=
    (step.same id (first ▸ tables.bounds_of_declared declared)).symm.trans known
  have new {id : NodeId} (declares : Sites.Declares (Sites.program round.program) id)
      (known : later.slot? id = some slot) :=
    step.range below (first_le_of_declares fit declares) known
  rcases declared_append one with one | one <;> rcases declared_append two with two | two
  · exact tables.apart id other slot one two (old one known) (old two same)
  · exact absurd (tables.small id slot (old one known)) (Nat.not_lt.mpr (new two same).2.2.1)
  · exact absurd (tables.small other slot (old two same)) (Nat.not_lt.mpr (new one known).2.2.1)
  · exact (step.recorded (new one known).1).eq_of_declares one two known same

/-- What one more run does to the tables. -/
theorem step (tables : s.Tables rounds) (reads : s.Reads round) (done : s.After round after) :
    after.Tables (rounds ++ [round]) := by
  have step := reads.step tables.below
  rw [← done.bindings] at step
  obtain ⟨first, fit, -, -⟩ := reads
  have below : s.bindings.Below round.first := first ▸ tables.below
  have up : s.nextNode ≤ after.nextNode := by
    rw [← first, done.nextNode]
    exact fit.up
  constructor
  · exact List.forall_mem_append.mpr ⟨tables.fits, List.forall_mem_singleton.mpr fit⟩
  · refine List.forall_mem_append.mpr ⟨fun old member => ?_, List.forall_mem_singleton.mpr ?_⟩
    · exact Nat.le_trans (tables.ended old member) up
    · exact Nat.le_of_eq done.nextNode.symm
  · refine List.pairwise_append.mpr ⟨tables.ordered, List.pairwise_singleton _ _, ?_⟩
    intro old member new isNew
    rw [List.mem_singleton.mp isNew, first]
    exact tables.ended old member
  · rw [done.nextNode]
    exact step.below
  · intro id slot known
    by_cases small : id < round.first
    · exact Nat.lt_of_lt_of_le (tables.small id slot ((step.same id small).symm.trans known)) step.up
    · exact (step.range below (Nat.le_of_not_lt small) known).2.2.2
  · refine List.forall_mem_append.mpr ⟨fun old member accepted site inside => ?_,
      List.forall_mem_singleton.mpr fun accepted => (step.recorded accepted).bound⟩
    refine (tables.bound old member accepted site inside).mono (step.grows below) fun id own => ?_
    have node : id ∈ Nodes.stmts old.program := by
      rw [← Sites.nodes_program]
      exact List.mem_flatMap.mpr ⟨site, inside, own⟩
    refine step.same id (Nat.lt_of_lt_of_le ((tables.fits old member).numbered.bounds node).2 ?_)
    exact first ▸ tables.ended old member
  · refine List.forall_mem_append.mpr ⟨fun old member other id low high => ?_,
      List.forall_mem_singleton.mpr step.absent⟩
    refine (step.same id ?_).trans (tables.absent old member other id low high)
    exact Nat.lt_of_lt_of_le high (first ▸ tables.ended old member)
  · exact tables.apart_of_step first fit step

end Tables

theorem Tables.resetScopes (tables : s.Tables rounds) : s.resetScopes.Tables rounds :=
  ⟨tables.fits, tables.ended, tables.ordered, tables.below, tables.small, tables.bound, tables.absent,
    tables.apart⟩

/-- The tables of every session that is reached by runs. -/
theorem Recalls.tables (recalls : s.Recalls rounds) : s.Tables rounds := by
  induction recalls with
  | new config output errors => exact .new config output errors
  | run bound source before ran tables =>
    exact tables.step (round_reads tables.below source) (after_round ran)
  | resetScopes before tables => exact tables.resetScopes

/-- No number is given to two nodes, be they of one program or of two. -/
theorem Tables.nodup (tables : s.Tables rounds) :
    (rounds.flatMap fun round => Nodes.stmts round.program).Nodup := by
  refine List.nodup_flatMap.mpr
    ⟨fun round member => (tables.fits round member).numbered.nodup, ?_⟩
  refine tables.ordered.imp_of_mem fun {earlier later} one two order id first second => ?_
  have low := ((tables.fits earlier one).numbered.bounds first).2
  have high := ((tables.fits later two).numbered.bounds second).1
  exact absurd (Nat.lt_of_lt_of_le low order) (Nat.not_lt.mpr high)

/-- A later session has the same bindings for all nodes that were given out before. -/
theorem Continues.same {later : Session} (continues : s.Continues later) (recalls : s.Recalls rounds) :
    (∃ more, later.Recalls (rounds ++ more)) ∧ s.nextNode ≤ later.nextNode ∧
      ∀ id, id < s.nextNode → later.bindings.slot? id = s.bindings.slot? id := by
  induction continues with
  | refl => exact ⟨⟨[], by rw [List.append_nil]; exact recalls⟩, Nat.le_refl _, fun _ _ => rfl⟩
  | @run middle after exit bound source before ran ih =>
    obtain ⟨⟨more, reached⟩, up, same⟩ := ih
    have reads := round_reads reached.tables.below source
    have done := after_round ran
    have step := reads.step reached.tables.below
    rw [← done.bindings] at step
    have first := reads.first
    refine ⟨⟨more ++ [middle.round source], ?_⟩, ?_, fun id small => ?_⟩
    · rw [← List.append_assoc]
      exact reached.run bound source ran
    · rw [done.nextNode]
      exact Nat.le_trans up (first ▸ reads.fit.up)
    · exact (step.same id (first ▸ Nat.lt_of_lt_of_le small up)).trans (same id small)
  | resetScopes before ih =>
    obtain ⟨⟨more, reached⟩, up, same⟩ := ih
    exact ⟨⟨more, reached.resetScopes⟩, up, same⟩

end Session

/-- Whatever runs a session has seen, accepted, refused or failed: no two nodes have the same number; the
sites of accepted programs are bound as their paths say; declarations that are bound have slots of their
own, which have all been counted; a node that refers to a name has the slot of a declaration of the same
program, if it has one; no later run changes what the nodes of an accepted program were given; and a
refused program has left no entry for any of the numbers that were used up for it. -/
theorem slots_over_a_session {rounds : List Round} {s : Session} (recalls : s.Recalls rounds) :
    (rounds.flatMap fun round => Nodes.stmts round.program).Nodup ∧
    (∀ round ∈ rounds, round.ruling = .accepted →
      ∀ site ∈ Sites.program round.program, site.Bound s.bindings) ∧
    (∀ id slot, Session.DeclaredIn rounds id → s.bindings.slot? id = some slot →
      slot < s.bindings.nextSlot ∧ ∀ other slot', Session.DeclaredIn rounds other → id ≠ other →
        s.bindings.slot? other = some slot' → slot ≠ slot') ∧
    (∀ round ∈ rounds, ∀ site ∈ Sites.program round.program, ∀ id slot,
      site.mention.referring? = some id → s.bindings.slot? id = some slot →
        ∃ declaration, Sites.Declares (Sites.program round.program) declaration ∧
          s.bindings.slot? declaration = some slot) ∧
    (∀ later, s.Continues later → ∀ round ∈ rounds, round.ruling = .accepted →
      ∀ id ∈ Nodes.stmts round.program, later.bindings.slot? id = s.bindings.slot? id) ∧
    ∀ round ∈ rounds, (∀ id ∈ Nodes.stmts round.program, round.first ≤ id ∧ id < round.last) ∧
      (round.ruling = .refused →
        ∀ id, round.first ≤ id → id < round.last → s.bindings.slot? id = none) := by
  have tables := recalls.tables
  refine ⟨tables.nodup, tables.bound, ?_, ?_, ?_, ?_⟩
  · intro id slot one known
    refine ⟨tables.small id slot known, fun other slot' two apart known' same => apart ?_⟩
    exact tables.apart id other slot one two known (same ▸ known')
  · intro round member site inside id slot refers known
    have own : id ∈ Sites.nodes (Sites.program round.program) :=
      List.mem_flatMap.mpr ⟨site, inside, Mention.mem_nodes.mpr (.inr refers)⟩
    by_cases accepted : round.ruling = .accepted
    · exact Sites.declaration_of_mem_nodes (tables.bound round member accepted) own known
    · rw [Sites.nodes_program] at own
      have bounds := (tables.fits round member).numbered.bounds own
      rw [tables.absent round member accepted id bounds.1 bounds.2] at known
      cases known
  · intro later continues round member _ id own
    refine (continues.same recalls).2.2 id (Nat.lt_of_lt_of_le ?_ (tables.ended round member))
    exact ((tables.fits round member).numbered.bounds own).2
  · intro round member
    refine ⟨fun id own => (tables.fits round member).numbered.bounds own, fun refused => ?_⟩
    exact tables.absent round member (by rw [refused]; nofun)

/-- A program that is refused after some of its nodes were bound, between two that are accepted. -/
theorem slots_over_a_session_with_a_refusal :
    let start := Session.new {} .unlimited .unlimited
    let first := "{ var a = 1; fun f(b) { return a + b; } print f(2); }"
    let second := "{ var a; { var c; } var a; }"
    (start.round first).ruling = .accepted ∧
    (start.run 8 first).map (fun ran => (ran.2.round second).ruling) = some .refused ∧
    ((start.run 8 first).bind fun ran => ran.2.run 8 second).isSome = true ∧
    ∀ exit s exit' after, start.run 8 first = some (exit, s) →
      s.run 8 second = some (exit', after) →
        (∀ round ∈ [start.round first, s.round second], round.ruling = .refused →
          ∀ id, round.first ≤ id → id < round.last → after.bindings.slot? id = none) ∧
        ∀ later, after.Continues later → ∀ id ∈ Nodes.stmts (start.round first).program,
          later.bindings.slot? id = after.bindings.slot? id := by
  intro start first second
  have accepted : (start.round first).ruling = .accepted := by decide +kernel
  refine ⟨accepted, by decide +kernel, by decide +kernel, fun exit s exit' after ran ran' => ?_⟩
  have kept := slots_over_a_session (((Session.Recalls.new {} .unlimited .unlimited).run 8 first
    ran).run 8 second ran')
  exact ⟨fun round member => (kept.2.2.2.2.2 round member).2,
    fun later continues => kept.2.2.2.2.1 later continues _ List.mem_cons_self accepted⟩

end Lox
