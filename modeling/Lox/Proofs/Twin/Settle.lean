import Lox.Proofs.Syntax.Within
import Lox.Proofs.Twin.Program
import Lox.Proofs.Twin.Stage

set_option autoImplicit false

/-! Resolution in two sessions side by side. A program that is accepted makes more nodes and slots
correspond; one that is refused leaves nothing behind but slots that are never used. -/

namespace Lox

namespace Correspondence

variable (w : Correspondence) (a : Allotment) (n : Nat)

/-- With the nodes of a program up to `last`, and the slots that were given out for it. -/
def settle (bindings : Bindings) (last : NodeId) : Correspondence where
  nodes id other := w.nodes id other ∨ (id < last ∧ a.reading.counted id other)
  hidden id other := w.hidden id other ∨
    (id < last ∧ a.reading.counted id other ∧ (bindings.slot? id).isSome = true)
  slots slot slot' := w.slots slot slot' ∨ a.paired n slot slot'
  positions := w.positions

variable {w a n} {after after' : Bindings} {last : NodeId}

theorem le_settle (bindings : Bindings) (last : NodeId) : w.Le (w.settle a n bindings last) :=
  ⟨fun _ _ => .inl, fun _ _ => .inl, fun _ _ => .inl, fun _ _ => id⟩

theorem extends_settle
    (slots : ∀ slot slot', w.slots slot slot' → slot < a.base ∧ slot' < a.other)
    (bindings : Bindings) (last : NodeId) : w.Extends (w.settle a n bindings last) := by
  refine ⟨le_settle bindings last, fun slot slot' pair => pair.imp_right ?_⟩
  rintro ⟨k, -, rfl, rfl⟩
  refine ⟨?_, ?_⟩
  · rintro ⟨other, old⟩
    exact absurd (slots _ _ old).1 (Nat.not_lt.mpr (Nat.le_add_right _ _))
  · rintro ⟨other, old⟩
    exact absurd (slots _ _ old).2 (Nat.not_lt.mpr (Nat.le_add_right _ _))

theorem Binds.settle {one two : Bindings} (binds : w.Binds one two)
    (slots : ∀ slot slot', w.slots slot slot' → slot < a.base ∧ slot' < a.other)
    (kept : ∀ id other, w.nodes id other ∨ w.hidden id other →
      after.slot? id = one.slot? id ∧ after'.slot? other = two.slot? other)
    (twin : Bindings.Twin a n after after') (last : NodeId) :
    (w.settle a n after last).Binds after after' where
  nodes id other pair := by
    rcases pair with old | ⟨-, counted⟩
    · obtain ⟨same, same'⟩ := kept id other (.inl old)
      rw [same, same']
      rcases binds.both old with ⟨slot, slot', bound, bound', pair⟩ | ⟨bound, bound'⟩
      · rw [bound, bound']
        exact .some (.inl pair)
      · rw [bound, bound']
        exact .none
    · have pair := twin.nodes id other counted
      generalize after.slot? id = slot at pair ⊢
      generalize after'.slot? other = slot' at pair ⊢
      cases pair with
      | none => exact .none
      | some pair => exact .some (.inr pair)
  hidden id other pair := by
    rcases pair with old | ⟨-, counted, known⟩
    · obtain ⟨same, same'⟩ := kept id other (.inr old)
      obtain ⟨slot, slot', bound, bound', pair⟩ := binds.hidden id other old
      exact ⟨slot, slot', same.trans bound, same'.trans bound', .inl pair⟩
    · have pair := twin.nodes id other counted
      generalize after.slot? id = slot at pair known ⊢
      generalize after'.slot? other = slot' at pair ⊢
      cases pair with
      | none => cases known
      | some pair => exact ⟨_, _, rfl, rfl, .inr pair⟩
  injective slot slot' wanted wanted' pair also := by
    rcases pair with old | ⟨k, -, rfl, rfl⟩
    · rcases also with older | ⟨j, -, rfl, rfl⟩
      · exact binds.injective slot slot' wanted wanted' old older
      · have bounds := slots _ _ old
        exact iff_of_false (Nat.ne_of_lt (Nat.lt_add_right j bounds.1))
          (Nat.ne_of_lt (Nat.lt_add_right j bounds.2))
    · rcases also with older | ⟨j, -, rfl, rfl⟩
      · have bounds := slots _ _ older
        exact iff_of_false (Nat.ne_of_gt (Nat.lt_add_right k bounds.1))
          (Nat.ne_of_gt (Nat.lt_add_right k bounds.2))
      · exact Nat.add_left_cancel_iff.trans Nat.add_left_cancel_iff.symm

/-- Programs whose nodes have all been settled are alike in the larger correspondence. -/
theorem settled_le {positions : Nat → Nat → Prop} (same : a.reading.pair = Token.Twin positions)
    (more : w.positions = positions) :
    ((a.settled after).within (· < last)).Le (w.settle a n after last).likeness where
  token t u pair := by
    change Token.Twin w.positions t u
    rw [more, ← same]
    exact pair
  named id name other otherName both := by
    refine ⟨.inr ⟨both.1, both.2.1⟩, ?_⟩
    change Token.Twin w.positions name otherName
    rw [more, ← same]
    exact both.2.2
  node id other both := .inr both
  hidden id other both := .inr both

end Correspondence

/-- What two sessions have given out when they come to resolve a program. -/
def Session.allotment (s s' : Session) (positions : Nat → Nat → Prop) (first second : NodeId) :
    Allotment where
  reading := Reading.again positions first second
  base := s.bindings.nextSlot
  other := s'.bindings.nextSlot
  plain _ _ twin := twin.plain

namespace Session.Abreast

variable {w : Correspondence} {start start' s s' : Session} {after after' : Bindings}

/-- Bindings of which the old part has been kept. -/
theorem rebind (abreast : Session.Abreast w start start' s s')
    (kept : ∀ id other, w.nodes id other ∨ w.hidden id other →
      after.slot? id = s.bindings.slot? id ∧ after'.slot? other = s'.bindings.slot? other)
    (up : s.bindings.nextSlot ≤ after.nextSlot) (up' : s'.bindings.nextSlot ≤ after'.nextSlot) :
    Session.Abreast w start start' { s with bindings := after } { s' with bindings := after' } := by
  refine ⟨⟨abreast.config, abreast.unchanged, abreast.machine, ⟨fun id other known => ?_, fun id other known => ?_,
    abreast.binds.injective⟩, fun slot slot' pair => ?_, abreast.nodes⟩, abreast.reporter⟩
  · obtain ⟨same, same'⟩ := kept id other (.inl known)
    rw [same, same']
    exact abreast.binds.nodes id other known
  · obtain ⟨same, same'⟩ := kept id other (.inr known)
    rw [same, same']
    exact abreast.binds.hidden id other known
  · obtain ⟨small, small'⟩ := abreast.slots slot slot' pair
    exact ⟨Nat.lt_of_lt_of_le small up, Nat.lt_of_lt_of_le small' up'⟩

/-- Bindings that an accepted program has got. -/
theorem settle (abreast : Session.Abreast w start start' s s') {first second : NodeId} {n : Nat}
    (kept : ∀ id other, w.nodes id other ∨ w.hidden id other →
      after.slot? id = s.bindings.slot? id ∧ after'.slot? other = s'.bindings.slot? other)
    (twin : Bindings.Twin (s.allotment s' w.positions first second) n after after')
    (counted : (s.allotment s' w.positions first second).reading.counted s.nextNode s'.nextNode) :
    Session.Abreast (w.settle (s.allotment s' w.positions first second) n after s.nextNode) start
      start' { s with bindings := after } { s' with bindings := after' } := by
  refine ⟨⟨abreast.config, abreast.unchanged, abreast.machine.extend (Correspondence.extends_settle abreast.slots _ _),
    abreast.binds.settle abreast.slots kept twin s.nextNode, fun slot slot' pair => ?_,
    fun id other pair => ?_⟩, abreast.reporter⟩
  · change slot < after.nextSlot ∧ slot' < after'.nextSlot
    rw [twin.next, twin.otherNext]
    rcases pair with old | ⟨k, less, rfl, rfl⟩
    · obtain ⟨small, small'⟩ := abreast.slots slot slot' old
      exact ⟨Nat.lt_add_right n small, Nat.lt_add_right n small'⟩
    · exact ⟨Nat.add_lt_add_left less _, Nat.add_lt_add_left less _⟩
  · have new (small : id < s.nextNode)
        (also : (s.allotment s' w.positions first second).reading.counted id other) :
        id < s.nextNode ∧ other < s'.nextNode := by
      obtain ⟨k, rfl, rfl⟩ := also
      obtain ⟨count, up, up'⟩ := counted
      refine ⟨small, ?_⟩
      rw [up] at small
      rw [up']
      exact Nat.add_lt_add_left (Nat.lt_of_add_lt_add_left small) _
    rcases pair with (old | found) | (old | found)
    · exact abreast.nodes id other (.inl old)
    · exact new found.1 found.2
    · exact abreast.nodes id other (.inr old)
    · exact new found.1 found.2.1

end Session.Abreast

namespace Stage

variable {w : Correspondence} {start start' s s' : Session}

/-- Programs that are alike are both accepted, and are alike as to hidden variables as well, or both
refused, so that the run ends at the next checkpoint. -/
theorem resolve_twins (abreast : Session.Abreast w start start' s s') {first second : NodeId}
    (below : s.bindings.Below first) (below' : s'.bindings.Below second)
    (old : ∀ id other, w.nodes id other ∨ w.hidden id other → id < first ∧ other < second)
    {program program' : List Stmt}
    (alike : Stmts.Like (Reading.again w.positions first second).likeness program program')
    (counted : (Reading.again w.positions first second).counted s.nextNode s'.nextNode)
    (fit : Grammar.Fit.stmts first s.nextNode program)
    (fit' : Grammar.Fit.stmts second s'.nextNode program') :
    Twins (Session.Alike start start') (fun _ _ t t' => ∃ more,
      Session.Abreast more start start' t t' ∧
        (t.reporter.checkpoint = none → Stmts.Like more.likeness program program'))
      (resolve first program) (resolve second program') s s' := by
  have outcomes := Resolve.resolve_outcomes alike
    (.fresh (a := s.allotment s' w.positions first second) rfl rfl below below')
  have kept (id other : NodeId) (known : w.nodes id other ∨ w.hidden id other) :
      (Lox.resolve s.bindings program).2.slot? id = s.bindings.slot? id ∧
        (Lox.resolve s'.bindings program').2.slot? other = s'.bindings.slot? other :=
    ⟨resolve_outside fit below (.inl (old id other known).1),
      resolve_outside fit' below' (.inl (old id other known).2)⟩
  refine .get_bind ?_
  generalize Lox.resolve s.bindings program = one at outcomes kept ⊢
  generalize Lox.resolve s'.bindings program' = two at outcomes kept ⊢
  cases outcomes with
  | accepted le twin settled =>
      have own : Stmts.Like _ program program' := settled.within fun id member =>
        (fit.numbered.bounds member).2
      exact .ok ⟨_, abreast.settle kept twin counted,
        fun _ => own.mono (Correspondence.settled_le rfl rfl)⟩
  | @refused e f m after after' le twin faults tokens =>
      have dropped : Session.Abreast w start start' { s with bindings := after.forgetFrom first }
          { s' with bindings := after'.forgetFrom second } := by
        refine abreast.rebind (fun id other known => ?_) (twin.next ▸ Nat.le_add_right _ _)
          (twin.otherNext ▸ Nat.le_add_right _ _)
        rw [Bindings.slot?_forgetFrom, Bindings.slot?_forgetFrom, if_pos (old id other known).1,
          if_pos (old id other known).2]
        exact kept id other known
      have same : Diagnostic.Twin w.positions e.diagnostic f.diagnostic :=
        ⟨rfl, congrArg ResolutionFault.message faults, Token.Twin.span tokens⟩
      refine .modify_bind _ _ (.ok ⟨w, dropped.reportAll (.cons same .nil), fun impossible => ?_⟩)
      simp [Reporter.checkpoint, Reporter.reportAll, Reporter.report] at impossible

end Stage
end Lox
