import Lox.Proofs.Session.Load
import Lox.Proofs.Twin.Reporter

set_option autoImplicit false

/-! The stages of a run, in two sessions side by side. Each stage ends alike in both: it yields what
corresponds, or the run ends with the same errors. -/

namespace Lox

namespace Correspondence

variable (w : Correspondence)

/-- A correspondence that knows more positions. -/
def reading (positions : Nat → Nat → Prop) : Correspondence :=
  { w with positions := positions }

theorem extends_reading {positions : Nat → Nat → Prop}
    (more : ∀ p q, w.positions p q → positions p q) : w.Extends (w.reading positions) :=
  ⟨⟨fun _ _ => id, fun _ _ => id, fun _ _ => id, more⟩, fun _ _ => .inl⟩

end Correspondence

section

variable (w : Correspondence) (start start' : Session)

/-- Two sessions in which code that is alike does the same, and whose programs have written the same since
they began. -/
structure Session.Similar (s s' : Session) : Prop where
  config : s.config = s'.config
  unchanged : s.config = start.config
  machine : Machine.Twin w start.machine.output start'.machine.output s.machine s'.machine
  binds : w.Binds s.bindings s'.bindings
  slots : ∀ slot slot', w.slots slot slot' →
    slot < s.bindings.nextSlot ∧ slot' < s'.bindings.nextSlot
  nodes : ∀ id other, w.nodes id other ∨ w.hidden id other → id < s.nextNode ∧ other < s'.nextNode

/-- Two sessions that will treat any source alike. -/
structure Session.Twin (s s' : Session) : Prop extends Session.Similar w start start' s s' where
  reporter : Reporter.Twin w.positions start.reporter.sink start'.reporter.sink s.reporter s'.reporter

/-- Two sessions in the middle of a run of one source. -/
structure Session.Abreast (s s' : Session) : Prop extends Session.Similar w start start' s s' where
  reporter : Reporter.Abreast w.positions start.reporter.sink start'.reporter.sink s.reporter
    s'.reporter

end

def Session.Alike (start start' s s' : Session) : Prop :=
  ∃ w, Session.Twin w start start' s s'

namespace Session

variable {w : Correspondence} {start start' s s' : Session}

theorem Abreast.alike (abreast : Session.Abreast w start start' s s') :
    Session.Alike start start' s s' :=
  ⟨w, abreast.toSimilar, abreast.reporter.toTwin⟩

/-- From here on. -/
theorem Twin.anew (twin : Session.Twin w start start' s s') : Session.Twin w s s' s s' := by
  have output := twin.machine.output
  have sink := twin.reporter.sink
  refine ⟨⟨twin.config, rfl, ?_, twin.binds, twin.slots, twin.nodes⟩, ?_⟩
  · exact { twin.machine with
      output := .refl output.endless output.endless' output.flushes output.flushes' }
  · exact { twin.reporter with
      sink := .refl sink.endless sink.endless' sink.flushes sink.flushes' }

theorem Abreast.reportAll (abreast : Session.Abreast w start start' s s') {ds es : List Diagnostic}
    (same : List.Forall₂ (Diagnostic.Twin w.positions) ds es) :
    Session.Abreast w start start' { s with reporter := s.reporter.reportAll ds }
      { s' with reporter := s'.reporter.reportAll es } :=
  ⟨⟨abreast.config, abreast.unchanged, abreast.machine, abreast.binds, abreast.slots, abreast.nodes⟩,
    abreast.reporter.reportAll same⟩

end Session

namespace Stage

section

variable {α : Type} (bad : Session → Session → Prop) (good : α → α → Session → Session → Prop)

/-- Two outcomes of a stage that are alike. -/
inductive Meets : EStateM.Result Halt Session α → EStateM.Result Halt Session α → Prop
  | ok {a b : α} {s s' : Session} (isGood : good a b s s') : Meets (.ok a s) (.ok b s')
  | exit {exit : Exit} {s s' : Session} (isBad : bad s s') :
      Meets (.error (.exit exit) s) (.error (.exit exit) s')
  | exhausted {s s' : Session} : Meets (.error .exhausted s) (.error .exhausted s')

def Twins (stage stage' : Stage α) (s s' : Session) : Prop :=
  Meets bad good (stage s) (stage' s')

end

namespace Twins

variable {α β : Type} {bad : Session → Session → Prop} {good : α → α → Session → Session → Prop}
  {stage stage' : Stage α} {s s' : Session}

theorem bind {next : β → β → Session → Session → Prop} {second second' : α → Stage β}
    (one : Twins bad good stage stage' s s')
    (two : ∀ a b t t', good a b t t' → Twins bad next (second a) (second' b) t t') :
    Twins bad next (stage >>= second) (stage' >>= second') s s' := by
  unfold Twins at one
  cases first : stage s with
  | ok a t =>
      cases other : stage' s' with
      | ok b t' =>
          rw [first, other] at one
          cases one with
          | ok isGood =>
              unfold Twins
              rw [Outcome.bind_of_ok first, Outcome.bind_of_ok other]
              exact two a b t t' isGood
      | error halt t' =>
          rw [first, other] at one
          cases one
  | error halt t =>
      cases other : stage' s' with
      | ok b t' =>
          rw [first, other] at one
          cases one
      | error halt' t' =>
          rw [first, other] at one
          unfold Twins
          rw [Outcome.bind_of_error first, Outcome.bind_of_error other]
          cases one with
          | exit isBad => exact .exit isBad
          | exhausted => exact .exhausted

theorem get_bind {second second' : Session → Stage α}
    (rest : Twins bad good (second s) (second' s') s s') :
    Twins bad good (get >>= second) (get >>= second') s s' :=
  rest

theorem modify_bind (change change' : Session → Session) {second second' : Unit → Stage α}
    (rest : Twins bad good (second ()) (second' ()) (change s) (change' s')) :
    Twins bad good (modify change >>= second) (modify change' >>= second') s s' :=
  rest

theorem pure {a b : α} (isGood : good a b s s') : Twins bad good (return a) (return b) s s' :=
  .ok isGood

theorem imp {better : α → α → Session → Session → Prop} (twins : Twins bad good stage stage' s s')
    (improves : ∀ a b t t', good a b t t' → better a b t t') :
    Twins bad better stage stage' s s' := by
  unfold Twins at twins ⊢
  generalize stage s = one at twins ⊢
  generalize stage' s' = two at twins ⊢
  cases twins with
  | ok isGood => exact .ok (improves _ _ _ _ isGood)
  | exit isBad => exact .exit isBad
  | exhausted => exact .exhausted

/-- What each of the two stages leaves by itself. -/
theorem both {left right : Session → Prop} {leftGood rightGood : α → Session → Prop}
    (twins : Twins bad good stage stage' s s') (one : Ends stage s left leftGood)
    (two : Ends stage' s' right rightGood) :
    Twins bad (fun a b t t' => good a b t t' ∧ leftGood a t ∧ rightGood b t') stage stage' s s' := by
  unfold Twins at twins ⊢
  unfold Ends at one two
  generalize stage s = x at twins one ⊢
  generalize stage' s' = y at twins two ⊢
  cases twins with
  | ok isGood => exact .ok ⟨isGood, one, two⟩
  | exit isBad => exact .exit isBad
  | exhausted => exact .exhausted

end Twins

section

variable {w : Correspondence} {start start' s s' : Session}

theorem report_twins (abreast : Session.Abreast w start start' s s') {ds es : List Diagnostic}
    (same : List.Forall₂ (Diagnostic.Twin w.positions) ds es)
    {bad : Session → Session → Prop} :
    Twins bad (fun _ _ t t' => Session.Abreast w start start' t t') (report ds) (report es) s s' :=
  .ok (abreast.reportAll same)

theorem halt_twins (abreast : Session.Abreast w start start' s s') {α : Type}
    {good : α → α → Session → Session → Prop} :
    Twins (Session.Alike start start') good halt halt s s' := by
  unfold Twins halt
  rw [abreast.reporter.exit_eq]
  exact .exit abreast.alike

theorem checkpoint_twins (abreast : Session.Abreast w start start' s s') :
    Twins (Session.Alike start start')
      (fun _ _ t t' => t = s ∧ t' = s' ∧ s.reporter.checkpoint = none) checkpoint checkpoint s s' := by
  unfold Twins checkpoint
  rw [← abreast.reporter.checkpoint_eq]
  cases s.reporter.checkpoint with
  | none => exact .ok ⟨rfl, rfl, rfl⟩
  | some exit => exact .exit abreast.alike

/-- A source is read as corresponding tokens. -/
theorem scan_twins (twin : Session.Twin w s s' s s') (source : String)
    {bad : Session → Session → Prop} :
    Twins bad (fun ts us t t' => ∃ more, Session.Abreast (w.reading more) s s' t t' ∧
      List.Forall₂ (Token.Twin more) ts us ∧ ∃ token ∈ ts, token.isEnd = true)
      (scan source) (scan source) s s' := by
  unfold scan
  generalize Text.plainNewlines source.toList = text
  have grown : w.Extends (w.reading
      (Reporter.further w.positions s.reporter s'.reporter (String.ofList text))) :=
    w.extends_reading fun _ _ => .inl
  have begun : Session.Abreast (w.reading _) s s'
      { s with reporter := s.reporter.addSource (String.ofList text) }
      { s' with reporter := s'.reporter.addSource (String.ofList text) } :=
    ⟨⟨twin.config, rfl, twin.machine.extend grown, ⟨twin.binds.nodes, twin.binds.hidden,
      twin.binds.injective⟩, twin.slots, twin.nodes⟩, twin.reporter.addSource _⟩
  have within (x : Nat) (inside : x ≤ Text.byteLength text) :=
    Reporter.further_of_text w.positions s.reporter s'.reporter text inside
  exact .ok ⟨_, begun.reportAll (Token.lexical_twin text within), Token.ofText_twin text within,
    Token.ofText_ends _ text⟩

theorem loadTokens_twins (twin : Session.Twin w s s' s s') {config : Config}
    (quiet : config.dumpTokens = false) (source : String) :
    Twins (Session.Alike s s') (fun ts us t t' => ∃ more,
      Session.Abreast (w.reading more) s s' t t' ∧ List.Forall₂ (Token.Twin more) ts us ∧
        ∃ token ∈ ts, token.isEnd = true)
      (loadTokens config source) (loadTokens config source) s s' := by
  unfold loadTokens dumpIf
  rw [quiet]
  refine (scan_twins twin source).bind fun ts us t t' read => ?_
  obtain ⟨more, abreast, tokens, ends⟩ := read
  refine (checkpoint_twins abreast).bind fun _ _ r r' same => ?_
  obtain ⟨rfl, rfl, -⟩ := same
  exact .pure ⟨more, abreast, tokens, ends⟩

end

end Stage

/-- One text that is read twice, at two places. -/
def Reading.again (positions : Nat → Nat → Prop) (first second : NodeId) : Reading where
  pair := Token.Twin positions
  same _ _ twin := ⟨twin.kind, twin.lexeme⟩
  first := first
  second := second

theorem Grammar.diagnostics_twin {positions : Nat → Nat → Prop} {first second : NodeId}
    {one two : Parse} (alike : ParsesAlike (Reading.again positions first second) one two) :
    List.Forall₂ (Diagnostic.Twin positions) one.diagnostics two.diagnostics := by
  have fatal : List.Forall₂ (SyntaxError.Like (Reading.again positions first second))
      one.fatal.toList two.fatal.toList := by
    have fatal := alike.fatal
    generalize one.fatal = e at fatal ⊢
    generalize two.fatal = f at fatal ⊢
    cases fatal with
    | none => exact .nil
    | some same => exact .cons same .nil
  unfold Parse.diagnostics Parse.errors
  refine List.forall₂_map_left_iff.mpr (List.forall₂_map_right_iff.mpr ?_)
  refine List.Forall₂.imp (fun e f same => ⟨rfl, ?_, same.2.span⟩)
    (List.rel_append alike.recorded fatal)
  exact congrArg SyntaxFault.message same.1

namespace Stage

variable {w : Correspondence} {start start' s s' : Session}

/-- Corresponding tokens are read as programs that are alike. -/
theorem parse_twins (abreast : Session.Abreast w start start' s s') {ts us : List Token}
    (tokens : List.Forall₂ (Token.Twin w.positions) ts us)
    (ends : ∃ token ∈ ts, token.isEnd = true) :
    Twins (Session.Alike start start') (fun ss ss' t t' => Session.Abreast w start start' t t' ∧
      Stmts.Like (Reading.again w.positions s.nextNode s'.nextNode).likeness ss ss' ∧
        (Reading.again w.positions s.nextNode s'.nextNode).counted t.nextNode t'.nextNode)
      (parse ts) (parse us) s s' := by
  have alike := (Grammar.Cursor.like_ofTokens (r := Reading.again w.positions s.nextNode s'.nextNode)
    tokens ends).parse
  obtain ⟨count, up, up'⟩ := alike.nextId
  have read : Session.Abreast w start start' { s with nextNode := (Grammar.parse ts s.nextNode).nextId }
      { s' with nextNode := (Grammar.parse us s'.nextNode).nextId } := by
    refine ⟨⟨abreast.config, abreast.unchanged, abreast.machine, abreast.binds, abreast.slots, fun id other also => ?_⟩,
      abreast.reporter⟩
    obtain ⟨below, below'⟩ := abreast.nodes id other also
    exact ⟨Nat.lt_of_lt_of_le below (up ▸ Nat.le_add_right _ _),
      Nat.lt_of_lt_of_le below' (up' ▸ Nat.le_add_right _ _)⟩
  unfold parse
  refine .get_bind (.modify_bind _ _ ?_)
  have shown := read.reportAll (Grammar.diagnostics_twin alike)
  refine .modify_bind _ _ ?_
  have fatal := alike.fatal
  change Option.Rel _ (Grammar.parse ts s.nextNode).fatal (Grammar.parse us s'.nextNode).fatal at fatal
  generalize (Grammar.parse ts s.nextNode).fatal = e at fatal ⊢
  generalize (Grammar.parse us s'.nextNode).fatal = f at fatal ⊢
  cases fatal with
  | none => exact .pure ⟨shown, alike.statements, count, up, up'⟩
  | some same => exact halt_twins shown

theorem loadProgram_twins (abreast : Session.Abreast w start start' s s') {config : Config}
    (quiet : config.dumpAst = false) {ts us : List Token}
    (tokens : List.Forall₂ (Token.Twin w.positions) ts us)
    (ends : ∃ token ∈ ts, token.isEnd = true) :
    Twins (Session.Alike start start') (fun ss ss' t t' => Session.Abreast w start start' t t' ∧
      Stmts.Like (Reading.again w.positions s.nextNode s'.nextNode).likeness ss ss' ∧
        (Reading.again w.positions s.nextNode s'.nextNode).counted t.nextNode t'.nextNode)
      (loadProgram config ts) (loadProgram config us) s s' := by
  unfold loadProgram dumpIf
  rw [quiet]
  refine (parse_twins abreast tokens ends).bind fun ss ss' t t' read => ?_
  refine (checkpoint_twins read.1).bind fun _ _ r r' same => ?_
  obtain ⟨rfl, rfl, -⟩ := same
  exact .pure read

end Stage
end Lox
