import Lox.Proofs.Twin.Settle

set_option autoImplicit false

/-! Loading a source changes nothing that a later run depends on: not the machine, no binding of a node
that existed before, and no place in an earlier text. So a run that is rejected before its program is
executed can take place in one of two sessions alone. -/

namespace Lox

namespace Sink

theorem limit_accept (sink : Sink) (text : String) : (sink.accept text).limit = sink.limit := by
  unfold accept
  split <;> rfl

theorem flushFails_accept (sink : Sink) (text : String) :
    (sink.accept text).flushFails = sink.flushFails := by
  unfold accept
  split <;> rfl

end Sink

/-- Nothing has changed that a later run depends on: there may be more texts, numbers that have been used
up, and bindings of nodes that did not exist before. -/
structure Session.Undisturbed (s after : Session) : Prop where
  config : after.config = s.config
  machine : after.machine = s.machine
  style : after.reporter.style = s.reporter.style
  places : ∀ p, p < s.reporter.nextBase → after.reporter.sourceAt p = s.reporter.sourceAt p
  nextBase : s.reporter.nextBase ≤ after.reporter.nextBase
  limit : after.reporter.sink.limit = s.reporter.sink.limit
  flushFails : after.reporter.sink.flushFails = s.reporter.sink.flushFails
  bindings : ∀ id, id < s.nextNode → after.bindings.slot? id = s.bindings.slot? id
  nextSlot : s.bindings.nextSlot ≤ after.bindings.nextSlot
  nextNode : s.nextNode ≤ after.nextNode

namespace Session.Undisturbed

variable {s after : Session}

theorem report (still : s.Undisturbed after) (d : Diagnostic) :
    s.Undisturbed { after with reporter := after.reporter.report d } where
  config := still.config
  machine := still.machine
  style := still.style
  places := still.places
  nextBase := still.nextBase
  limit := (Sink.limit_accept _ _).trans still.limit
  flushFails := (Sink.flushFails_accept _ _).trans still.flushFails
  bindings := still.bindings
  nextSlot := still.nextSlot
  nextNode := still.nextNode

theorem reportAll (still : s.Undisturbed after) (ds : List Diagnostic) :
    s.Undisturbed { after with reporter := after.reporter.reportAll ds } := by
  induction ds generalizing after with
  | nil => exact still
  | cons d rest ih => exact ih (still.report d)

theorem addSource (s : Session) (text : String) :
    s.Undisturbed { s with reporter := s.reporter.addSource text } where
  config := rfl
  machine := rfl
  style := rfl
  places _ before := Reporter.sourceAt_addSource_of_lt s.reporter text before
  nextBase := by
    rw [Reporter.nextBase_addSource]
    omega
  limit := rfl
  flushFails := rfl
  bindings _ _ := rfl
  nextSlot := Nat.le_refl _
  nextNode := Nat.le_refl _

/-- A session that has not been disturbed treats any source as before. -/
theorem twin (still : s.Undisturbed after) {w : Correspondence} {s' : Session}
    (twin : Session.Twin w s s' s s') : Session.Twin w after s' after s' := by
  refine ⟨⟨still.config.trans twin.config, rfl, ?_, ⟨fun id other known => ?_, fun id other known => ?_,
    twin.binds.injective⟩, fun slot slot' pair => ?_, fun id other known => ?_⟩,
    still.style.trans twin.reporter.style, fun p q place => ?_, fun p q place => ?_, ?_⟩
  · rw [still.machine]
    exact twin.machine
  · rw [still.bindings id (twin.nodes id other (.inl known)).1]
    exact twin.binds.nodes id other known
  · rw [still.bindings id (twin.nodes id other (.inr known)).1]
    exact twin.binds.hidden id other known
  · obtain ⟨small, small'⟩ := twin.slots slot slot' pair
    exact ⟨Nat.lt_of_lt_of_le small still.nextSlot, small'⟩
  · obtain ⟨small, small'⟩ := twin.nodes id other known
    exact ⟨Nat.lt_of_lt_of_le small still.nextNode, small'⟩
  · exact (still.places p (twin.reporter.inside p q place).1).trans (twin.reporter.places p q place)
  · obtain ⟨small, small'⟩ := twin.reporter.inside p q place
    exact ⟨Nat.lt_of_lt_of_le small still.nextBase, small'⟩
  · have sink := twin.reporter.sink
    exact .refl (still.limit.trans sink.endless) sink.endless' (still.flushFails.trans sink.flushes)
      sink.flushes'

end Session.Undisturbed

/-- Resolving a program that has been read gives out slots, and takes none back. -/
theorem resolve_nextSlot {bindings : Bindings} {tokens : List Token} {first : NodeId}
    (tokensTwin : List.Forall₂ (Token.Twin Eq) tokens tokens)
    (ends : ∃ token ∈ tokens, token.isEnd = true) (below : bindings.Below first) :
    bindings.nextSlot ≤ (resolve bindings (Grammar.parse tokens first).statements).2.nextSlot := by
  let a : Allotment := ⟨Reading.again Eq first first, bindings.nextSlot, bindings.nextSlot,
    fun _ _ twin => twin.plain⟩
  have fresh : Bindings.Twin a 0 bindings bindings := .fresh rfl rfl below below
  have alike := (Grammar.Cursor.like_ofTokens (r := Reading.again Eq first first) tokensTwin
    ends).parse
  have outcomes := Resolve.resolve_outcomes (a := a) alike.statements fresh
  change Resolve.Outcomes a 0 _ _ (resolve bindings (Grammar.parse tokens first).statements)
    (resolve bindings (Grammar.parse tokens first).statements) at outcomes
  generalize resolve bindings (Grammar.parse tokens first).statements = one at outcomes ⊢
  cases outcomes with
  | accepted le twin settled => exact twin.next ▸ Nat.le_add_right _ _
  | refused le twin faults tokens => exact twin.next ▸ Nat.le_add_right _ _

namespace Stage

variable {s t : Session} {sites : List Site}

theorem report_undisturbed (still : s.Undisturbed t) (ds : List Diagnostic) :
    Ends (report ds) t s.Undisturbed fun _ after => s.Undisturbed after :=
  still.reportAll ds

theorem checkpoint_undisturbed (still : s.Undisturbed t) :
    Ends checkpoint t s.Undisturbed fun _ after => s.Undisturbed after ∧ after = t := by
  unfold Ends checkpoint
  cases t.reporter.checkpoint with
  | none => exact ⟨still, rfl⟩
  | some exit => exact still

theorem loadTokens_undisturbed {config : Config} (quiet : config.dumpTokens = false)
    (source : String) :
    Ends (loadTokens config source) s s.Undisturbed fun tokens after => s.Undisturbed after ∧
      ∃ base text, tokens = Token.ofText base text := by
  unfold loadTokens dumpIf
  rw [quiet]
  have scanned : Ends (scan source) s s.Undisturbed fun tokens after => s.Undisturbed after ∧
      ∃ base text, tokens = Token.ofText base text :=
    ⟨(Session.Undisturbed.addSource s _).reportAll _, _, _, rfl⟩
  refine scanned.bind fun tokens t read => ?_
  exact (checkpoint_undisturbed read.1).bind fun _ after still => ⟨still.1, read.2⟩

theorem parse_undisturbed (still : s.Undisturbed t) {tokens : List Token}
    (spelled : ∀ token ∈ tokens, token.Spelled) :
    Ends (parse tokens) t s.Undisturbed fun program after => s.Undisturbed after ∧
      program = (Grammar.parse tokens t.nextNode).statements := by
  have fit := Grammar.parse_fit spelled t.nextNode
  have read : s.Undisturbed { t with nextNode := (Grammar.parse tokens t.nextNode).nextId } :=
    { still with nextNode := Nat.le_trans still.nextNode fit.up }
  refine Ends.get_bind (Ends.modify_bind _ ?_)
  refine (report_undisturbed read _).bind fun _ after shown => ?_
  split
  · exact shown
  · exact ⟨shown, rfl⟩

theorem loadProgram_undisturbed (still : s.Undisturbed t) {config : Config}
    (quiet : config.dumpAst = false) {tokens : List Token}
    (spelled : ∀ token ∈ tokens, token.Spelled) :
    Ends (loadProgram config tokens) t s.Undisturbed fun program after => s.Undisturbed after ∧
      program = (Grammar.parse tokens t.nextNode).statements := by
  unfold loadProgram dumpIf
  rw [quiet]
  refine (parse_undisturbed still spelled).bind fun program after read => ?_
  exact (checkpoint_undisturbed read.1).bind fun _ last still => ⟨still.1, read.2⟩

theorem resolve_undisturbed (still : s.Undisturbed t) {first : NodeId} (old : s.nextNode ≤ first)
    (below : t.bindings.Below first) {program : List Stmt}
    (fit : Grammar.Fit.stmts first t.nextNode program)
    (up : t.bindings.nextSlot ≤ (Lox.resolve t.bindings program).2.nextSlot) :
    Ends (resolve first program) t s.Undisturbed fun _ after => s.Undisturbed after := by
  have kept (id : NodeId) (small : id < s.nextNode) :
      (Lox.resolve t.bindings program).2.slot? id = s.bindings.slot? id :=
    (resolve_outside fit below (.inl (Nat.lt_of_lt_of_le small old))).trans (still.bindings id small)
  refine Ends.get_bind ?_
  cases result : Lox.resolve t.bindings program with
  | mk refused bindings =>
      rw [result] at kept up
      cases refused with
      | none =>
          exact { still with bindings := kept, nextSlot := Nat.le_trans still.nextSlot up }
      | some e =>
          have forgotten : s.Undisturbed { t with bindings := bindings.forgetFrom first } := by
            refine { still with bindings := fun id small => ?_, nextSlot := ?_ }
            · rw [Bindings.slot?_forgetFrom, if_pos (Nat.lt_of_lt_of_le small old)]
              exact kept id small
            · exact Nat.le_trans still.nextSlot up
          exact forgotten.reportAll [e.diagnostic]

/-- Loading a source disturbs nothing, whether there is something to execute then or not. -/
theorem load_undisturbed (sound : s.Sound sites) (noTokens : s.config.dumpTokens = false)
    (noProgram : s.config.dumpAst = false) (source : String) :
    Ends (load source) s s.Undisturbed fun _ => s.Undisturbed := by
  unfold load
  apply Ends.get_bind
  refine ((loadTokens_undisturbed noTokens source).and
    (loadTokens_ends s.config source)).bind fun tokens t read => ?_
  obtain ⟨⟨scanned, base, text, rfl⟩, shown, -⟩ := read
  have spelled := Token.ofText_spelled base text
  apply Ends.get_bind
  refine ((loadProgram_undisturbed scanned noProgram spelled).and
    (loadProgram_ends (sound.shown shown) s.config spelled)).bind fun program r read => ?_
  obtain ⟨⟨parsed, same⟩, ready, fit⟩ := read
  split
  · exact parsed
  · have up : r.bindings.nextSlot ≤ (Lox.resolve r.bindings program).2.nextSlot := by
      rw [same]
      exact resolve_nextSlot (Token.ofText_twin text fun _ _ => rfl) (Token.ofText_ends base text)
        ready.below
    refine (resolve_undisturbed parsed scanned.nextNode ready.below fit up).bind
      fun _ q resolved => ?_
    refine (checkpoint_undisturbed resolved).bind fun _ last still => ?_
    split
    · exact still.1
    · exact still.1

end Stage
end Lox
