import Lox.Proofs.Grammar.Promise
import Lox.Proofs.Outcome
import Lox.Proofs.Syntax.Likeness
import Mathlib.Data.List.Forall2

set_option autoImplicit false

/-! Two rules that read abreast. Begun at cursors with corresponding tokens, they pass tokens in step,
give out corresponding nodes, and end alike: both with corresponding results or both with the same
fault at corresponding tokens. Neither is ever cut off for its depth. -/

namespace Lox

/-- What corresponds in two rows of tokens that read alike, and the nodes from which the two readings
count. -/
structure Reading where
  pair : Token → Token → Prop
  same : ∀ t u, pair t u → t.kind = u.kind ∧ t.lexeme = u.lexeme
  first : NodeId
  second : NodeId

namespace Reading

variable (r : Reading)

/-- Nodes that were given out equally late in the two readings. -/
def counted (id other : NodeId) : Prop :=
  ∃ count, id = r.first + count ∧ other = r.second + count

def likeness : Likeness where
  token := r.pair
  named id name other otherName := r.counted id other ∧ r.pair name otherName
  node := r.counted
  hidden := r.counted

variable {r}

theorem counted.next {id other : NodeId} (counted : r.counted id other) :
    r.counted (id + 1) (other + 1) := by
  obtain ⟨count, one, two⟩ := counted
  exact ⟨count + 1, by rw [one, Nat.add_assoc], by rw [two, Nat.add_assoc]⟩

theorem terminal_eq {t u : Token} (pair : r.pair t u) : t.terminal? = u.terminal? := by
  unfold Token.terminal?
  rw [(r.same t u pair).1]

theorem isEnd_eq {t u : Token} (pair : r.pair t u) : t.isEnd = u.isEnd := by
  unfold Token.isEnd
  rw [(r.same t u pair).1]

theorem head_terminal_eq {ts us : List Token} (pairs : List.Forall₂ r.pair ts us) :
    ts.head?.bind Token.terminal? = us.head?.bind Token.terminal? := by
  cases pairs with
  | nil => rfl
  | cons pair _ => exact terminal_eq pair

theorem isEmpty_eq {ts us : List Token} (pairs : List.Forall₂ r.pair ts us) :
    ts.isEmpty = us.isEmpty := by
  cases pairs <;> rfl

theorem forall_tail {ts us : List Token} (pairs : List.Forall₂ r.pair ts us) :
    List.Forall₂ r.pair ts.tail us.tail := by
  cases pairs with
  | nil => exact .nil
  | cons _ rest => exact rest

end Reading

namespace Grammar

def SyntaxError.Like (r : Reading) (e f : SyntaxError) : Prop :=
  e.fault = f.fault ∧ r.pair e.token f.token

/-- Cursors at corresponding places. -/
structure Cursor.Like (r : Reading) (c d : Cursor) : Prop where
  pending : List.Forall₂ r.pair c.pending d.pending
  stop : r.pair c.stop d.stop
  ends : c.stop.isEnd = true
  nextId : r.counted c.nextId d.nextId
  recorded : List.Forall₂ (SyntaxError.Like r) c.recorded d.recorded

namespace Cursor.Like

variable {r : Reading} {c d : Cursor}

theorem next (like : c.Like r d) : r.pair c.next d.next := by
  unfold Cursor.next
  generalize c.pending = ts, d.pending = us, like.pending = pairs
  cases pairs with
  | nil => exact like.stop
  | cons pair _ => exact pair

theorem advance (like : c.Like r d) :
    Cursor.Like r { c with pending := c.pending.tail } { d with pending := d.pending.tail } :=
  { like with pending := Reading.forall_tail like.pending }

end Cursor.Like

/-- Reading only passes tokens, and only adds to the errors. -/
structure Cursor.Reaches (start last : Cursor) : Prop where
  pending : last.pending <:+ start.pending
  stop : last.stop = start.stop
  nextId : start.nextId ≤ last.nextId
  recorded : start.recorded <:+ last.recorded

namespace Cursor.Reaches

variable {start middle last : Cursor}

theorem refl (cursor : Cursor) : cursor.Reaches cursor :=
  ⟨List.suffix_rfl, rfl, Nat.le_refl _, List.suffix_rfl⟩

theorem trans (one : start.Reaches middle) (two : middle.Reaches last) : start.Reaches last :=
  ⟨two.pending.trans one.pending, two.stop.trans one.stop, Nat.le_trans one.nextId two.nextId,
    one.recorded.trans two.recorded⟩

theorem length_le (reaches : start.Reaches last) : last.pending.length ≤ start.pending.length :=
  reaches.pending.length_le

theorem advance (cursor : Cursor) :
    cursor.Reaches { cursor with pending := cursor.pending.tail } :=
  ⟨List.tail_suffix _, rfl, Nat.le_refl _, List.suffix_rfl⟩

end Cursor.Reaches

/-- Outcomes that correspond. The result may be judged by the number of tokens that are left. -/
inductive Meets {α β : Type} (r : Reading) (start : Cursor) (good : Nat → α → β → Prop) :
    EStateM.Result Failure Cursor α → EStateM.Result Failure Cursor β → Prop
  | ok {a : α} {b : β} {c d : Cursor} (like : c.Like r d) (reaches : start.Reaches c)
      (isGood : good c.pending.length a b) : Meets r start good (.ok a c) (.ok b d)
  | error {e f : SyntaxError} {c d : Cursor} (like : c.Like r d) (reaches : start.Reaches c)
      (errors : SyntaxError.Like r e f) :
      Meets r start good (.error (.error e) c) (.error (.error f) d)

/-- Rules that read abreast when so many tokens are pending. -/
def Abreast {α β : Type} (r : Reading) (tokens : Nat) (good : Nat → α → β → Prop) (one : Rule α)
    (two : Rule β) : Prop :=
  ∀ c d : Cursor, c.Like r d → c.pending.length = tokens → Meets r c good (one c) (two d)

namespace Meets

variable {α β : Type} {r : Reading} {start : Cursor} {good : Nat → α → β → Prop}
  {one : EStateM.Result Failure Cursor α} {two : EStateM.Result Failure Cursor β}

theorem since {earlier : Cursor} (reaches : earlier.Reaches start) (meets : Meets r start good one two) :
    Meets r earlier good one two := by
  cases meets with
  | ok like more isGood => exact .ok like (reaches.trans more) isGood
  | error like more errors => exact .error like (reaches.trans more) errors

theorem imp {better : Nat → α → β → Prop} (meets : Meets r start good one two)
    (improves : ∀ tokens a b, tokens ≤ start.pending.length → good tokens a b → better tokens a b) :
    Meets r start better one two := by
  cases meets with
  | ok like more isGood => exact .ok like more (improves _ _ _ more.length_le isGood)
  | error like more errors => exact .error like more errors

end Meets

namespace Abreast

variable {r : Reading} {α β γ δ σ τ : Type} {n : Nat} {good : Nat → α → β → Prop}
  {next : Nat → γ → δ → Prop} {one : Rule α} {two : Rule β}

theorem pure {a : α} {b : β} (isGood : good n a b) :
    Abreast r n good (return a) (return b) := by
  intro c d like same
  subst same
  exact .ok like (.refl c) isGood

theorem imp {better : Nat → α → β → Prop} (abreast : Abreast r n good one two)
    (improves : ∀ m a b, m ≤ n → good m a b → better m a b) : Abreast r n better one two := by
  intro c d like same
  subst same
  exact (abreast c d like rfl).imp improves

theorem bind {f : α → Rule γ} {g : β → Rule δ} (first : Abreast r n good one two)
    (later : ∀ m a b, m ≤ n → good m a b → Abreast r m next (f a) (g b)) :
    Abreast r n next (one >>= f) (two >>= g) := by
  intro c d like same
  subst same
  have meets := first c d like rfl
  generalize done : one c = x at meets
  generalize other : two d = y at meets
  cases meets with
  | ok alike reaches isGood =>
      rw [Outcome.bind_of_ok done, Outcome.bind_of_ok other]
      exact (later _ _ _ reaches.length_le isGood _ _ alike rfl).since reaches
  | error alike reaches errors =>
      rw [Outcome.bind_of_error done, Outcome.bind_of_error other]
      exact .error alike reaches errors

theorem map (abreast : Abreast r n good one two) (f : α → γ) (g : β → δ)
    (improves : ∀ m a b, m ≤ n → good m a b → next m (f a) (g b)) :
    Abreast r n next (do let a ← one; return f a) (do let b ← two; return g b) :=
  abreast.bind fun m a b few isGood => pure (improves m a b few isGood)

theorem fmap (abreast : Abreast r n good one two) (f : α → γ) (g : β → δ)
    (improves : ∀ m a b, m ≤ n → good m a b → next m (f a) (g b)) :
    Abreast r n next (f <$> one) (g <$> two) := by
  rw [← bind_pure_comp, ← bind_pure_comp]
  exact abreast.map f g improves

theorem fail (fault : SyntaxFault) :
    Abreast r n good (Rule.fail fault) (Rule.fail fault) := by
  intro c d like same
  exact .error like (.refl c) ⟨rfl, like.next⟩

theorem fail_bind {f : α → Rule γ} {g : β → Rule δ} (fault : SyntaxFault) :
    Abreast r n next (Rule.fail fault >>= f) (Rule.fail fault >>= g) := by
  have failing : Abreast r n (fun (_ : Nat) (_ : α) (_ : β) => False) (Rule.fail fault)
      (Rule.fail fault) := fail fault
  exact failing.bind fun _ _ _ _ impossible => impossible.elim

theorem failAt (fault : SyntaxFault) {t u : Token} (pair : r.pair t u) :
    Abreast r n good (Rule.failAt fault t) (Rule.failAt fault u) := by
  intro c d like same
  exact .error like (.refl c) ⟨rfl, pair⟩

/-- The next token is known to be one of those that are pending unless it ends the input. -/
theorem peek_bind {f : Token → Rule γ} {g : Token → Rule δ}
    (later : ∀ t u, r.pair t u → (t.isEnd = false → 0 < n) → Abreast r n next (f t) (g u)) :
    Abreast r n next (Rule.peek >>= f) (Rule.peek >>= g) := by
  intro c d like same
  refine later c.next d.next like.next (fun opens => ?_) c d like same
  rw [← same]
  refine List.length_pos_iff.mpr fun none => ?_
  rw [Cursor.next, none, List.headD_nil, like.ends] at opens
  cases opens

theorem atEnd_bind {f : Bool → Rule γ} {g : Bool → Rule δ}
    (later : ∀ ended : Bool, (ended = false → 0 < n) → Abreast r n next (f ended) (g ended)) :
    Abreast r n next (Rule.atEnd >>= f) (Rule.atEnd >>= g) := by
  intro c d like same
  rw [Outcome.bind_of_ok (rfl : Rule.atEnd c = .ok c.pending.isEmpty c),
    Outcome.bind_of_ok (rfl : Rule.atEnd d = .ok d.pending.isEmpty d),
    ← Reading.isEmpty_eq like.pending]
  refine later _ (fun open_ => ?_) c d like same
  rw [← same]
  exact List.length_pos_iff.mpr (List.isEmpty_eq_false_iff.mp open_)

theorem advance_bind {f : Unit → Rule γ} {g : Unit → Rule δ} (some : 0 < n)
    (later : ∀ m, m < n → Abreast r m next (f ()) (g ())) :
    Abreast r n next (Rule.advance >>= f) (Rule.advance >>= g) := by
  intro c d like same
  rw [Outcome.bind_of_ok (rfl : Rule.advance c = .ok () _),
    Outcome.bind_of_ok (rfl : Rule.advance d = .ok () _)]
  refine (later (n - 1) (by omega) _ _ like.advance ?_).since (.advance c)
  rw [← same, List.length_tail]

theorem check_bind (terminal : Terminal) {f : Bool → Rule γ} {g : Bool → Rule δ}
    (later : ∀ found : Bool, (found = true → 0 < n) → Abreast r n next (f found) (g found)) :
    Abreast r n next (Rule.check terminal >>= f) (Rule.check terminal >>= g) := by
  intro c d like same
  rw [Outcome.bind_of_ok (rfl : Rule.check terminal c = .ok _ c),
    Outcome.bind_of_ok (rfl : Rule.check terminal d = .ok _ d),
    ← Reading.head_terminal_eq like.pending]
  refine later _ (fun found => ?_) c d like same
  rw [← same]
  refine List.length_pos_iff.mpr fun none => ?_
  rw [none] at found
  cases found

theorem checkSecond_bind (terminal : Terminal) {f : Bool → Rule γ} {g : Bool → Rule δ}
    (later : ∀ found : Bool, Abreast r n next (f found) (g found)) :
    Abreast r n next (Rule.checkSecond terminal >>= f) (Rule.checkSecond terminal >>= g) := by
  intro c d like same
  rw [Outcome.bind_of_ok (rfl : Rule.checkSecond terminal c = .ok _ c),
    Outcome.bind_of_ok (rfl : Rule.checkSecond terminal d = .ok _ d),
    ← Reading.head_terminal_eq (Reading.forall_tail like.pending)]
  exact later _ c d like same

theorem accept_bind (terminal : Terminal) {f : Bool → Rule γ} {g : Bool → Rule δ}
    (passed : ∀ m, m < n → Abreast r m next (f true) (g true))
    (kept : Abreast r n next (f false) (g false)) :
    Abreast r n next (Rule.accept terminal >>= f) (Rule.accept terminal >>= g) := by
  unfold Rule.accept
  rw [bind_assoc, bind_assoc]
  refine check_bind terminal fun found some => ?_
  cases found with
  | false =>
      intro c d like same
      exact kept c d like same
  | true => 
      simp only [if_true, bind_assoc]
      refine advance_bind (some rfl) fun m fewer => ?_
      intro c d like same
      exact passed m fewer c d like same

theorem expect_bind (terminal : Terminal) (fault : SyntaxFault) {f : Token → Rule γ}
    {g : Token → Rule δ}
    (later : ∀ m t u, m < n → r.pair t u → t.terminal? = some terminal →
      Abreast r m next (f t) (g u)) :
    Abreast r n next (Rule.expect terminal fault >>= f) (Rule.expect terminal fault >>= g) := by
  unfold Rule.expect
  rw [bind_assoc, bind_assoc]
  intro c d like same
  have both := Reading.head_terminal_eq like.pending
  cases found : (c.pending.head?.bind Token.terminal? == some terminal) with
  | false =>
      rw [Outcome.bind_of_ok (show Rule.check terminal c = .ok false c by rw [Rule.check, found]),
        Outcome.bind_of_ok (show Rule.check terminal d = .ok false d by
          rw [Rule.check, ← both, found])]
      exact fail_bind fault c d like same
  | true =>
      rw [Outcome.bind_of_ok (show Rule.check terminal c = .ok true c by rw [Rule.check, found]),
        Outcome.bind_of_ok (show Rule.check terminal d = .ok true d by
          rw [Rule.check, ← both, found])]
      have fewer : c.pending.tail.length < n := by
        cases tokens : c.pending with
        | nil =>
            rw [tokens] at found
            cases found
        | cons t rest =>
            rw [tokens] at same
            exact same ▸ Nat.lt_succ_self _
      have isTerminal : c.next.terminal? = some terminal := by
        cases tokens : c.pending with
        | nil =>
            rw [tokens] at found
            cases found
        | cons t rest =>
            rw [tokens] at found
            rw [Cursor.next, tokens]
            exact beq_iff_eq.mp found
      exact (later _ c.next d.next fewer like.next isTerminal _ _ like.advance rfl).since
        (.advance c)

theorem fresh_bind {f : NodeId → Rule γ} {g : NodeId → Rule δ}
    (later : ∀ id other, r.counted id other → Abreast r n next (f id) (g other)) :
    Abreast r n next (Rule.fresh >>= f) (Rule.fresh >>= g) := by
  intro c d like same
  rw [Outcome.bind_of_ok (rfl : Rule.fresh c = .ok c.nextId _),
    Outcome.bind_of_ok (rfl : Rule.fresh d = .ok d.nextId _)]
  have reaches : c.Reaches { c with nextId := c.nextId + 1 } :=
    ⟨List.suffix_rfl, rfl, Nat.le_succ _, List.suffix_rfl⟩
  have alike : Cursor.Like r { c with nextId := c.nextId + 1 } { d with nextId := d.nextId + 1 } :=
    ⟨like.pending, like.stop, like.ends, like.nextId.next, like.recorded⟩
  exact (later c.nextId d.nextId like.nextId _ _ alike same).since reaches

/-- What the rounds of two repeated rules keep, and what the last of them yields. A round that is not
the last passes a token. -/
def Kept (invariant : σ → τ → Prop) (good : Nat → α → β → Prop) (before after : Nat) :
    Rule.Round σ α → Rule.Round τ β → Prop
  | .again state, .again other => after < before ∧ invariant state other
  | .finish result, .finish other => good after result other
  | _, _ => False

/-- Repeated rules read abreast if their rounds do; no more rounds are needed than there are tokens,
and one. -/
theorem iterate {invariant : σ → τ → Prop} {round : σ → Rule (Rule.Round σ α)}
    {other : τ → Rule (Rule.Round τ β)} {bound limit : Nat} {s : σ} {t : τ} (enough : n < bound)
    (also : n < limit) (holds : invariant s t)
    (step : ∀ m s t, m ≤ n → invariant s t →
      Abreast r m (Kept invariant good m) (round s) (other t)) :
    Abreast r n good (Rule.iterate round bound s) (Rule.iterate other limit t) := by
  induction n using Nat.strongRecOn generalizing bound limit s t with
  | _ n ih =>
  obtain ⟨bound, rfl⟩ := Nat.exists_eq_succ_of_ne_zero (Nat.ne_zero_of_lt enough)
  obtain ⟨limit, rfl⟩ := Nat.exists_eq_succ_of_ne_zero (Nat.ne_zero_of_lt also)
  intro c d like same
  have meets := step n s t (Nat.le_refl n) holds c d like same
  generalize done : round s c = x at meets
  generalize twin : other t d = y at meets
  cases meets with
  | error alike reaches errors =>
      rw [Rule.iterate_of_error done, Rule.iterate_of_error twin]
      exact .error alike reaches errors
  | @ok a b after last alike reaches isGood =>
      cases a with
      | finish result =>
          cases b with
          | again => exact isGood.elim
          | finish =>
              rw [Rule.iterate_of_finish done, Rule.iterate_of_finish twin]
              exact .ok alike reaches isGood
      | again state =>
          cases b with
          | finish => exact isGood.elim
          | again =>
              rw [Rule.iterate_of_again done, Rule.iterate_of_again twin]
              obtain ⟨fewer, kept⟩ := isGood
              refine (ih _ fewer ?_ ?_ kept ?_ _ _ alike rfl).since reaches
              · omega
              · omega
              · exact fun m s t few => step m s t (by omega)

end Abreast
end Grammar

/-- A row of tokens read twice. -/
def Reading.self : Reading where
  pair := Eq
  same _ _ equal := equal ▸ ⟨rfl, rfl⟩
  first := 0
  second := 0

namespace Reading.self

open Grammar

theorem counted_eq {id other : NodeId} (counted : self.counted id other) : id = other := by
  obtain ⟨count, one, two⟩ := counted
  exact one.trans two.symm

theorem exact : self.likeness.Exact where
  token _ _ equal := equal
  named _ _ _ _ both := ⟨counted_eq both.1, both.2⟩
  node _ _ counted := counted_eq counted
  hidden _ _ counted := counted_eq counted

theorem reflexive : self.likeness.Reflexive where
  token _ := rfl
  named id _ := ⟨⟨id, (Nat.zero_add _).symm, (Nat.zero_add _).symm⟩, rfl⟩
  node id := ⟨id, (Nat.zero_add _).symm, (Nat.zero_add _).symm⟩

theorem error_eq {e f : SyntaxError} (alike : SyntaxError.Like self e f) : e = f := by
  cases e
  cases f
  obtain ⟨faults, tokens⟩ := alike
  cases faults
  cases tokens
  rfl

theorem cursor_eq {c d : Cursor} (alike : c.Like self d) : c = d := by
  have errors : c.recorded = d.recorded :=
    List.forall₂_eq_eq_eq ▸ alike.recorded.imp fun _ _ => error_eq
  have tokens : c.pending = d.pending := List.forall₂_eq_eq_eq ▸ alike.pending
  have ids := counted_eq alike.nextId
  have stops : c.stop = d.stop := alike.stop
  cases c
  cases d
  cases errors
  cases tokens
  cases ids
  cases stops
  rfl

theorem cursor_refl {c : Cursor} (ends : c.stop.isEnd = true) : c.Like self c where
  pending := List.forall₂_same.mpr fun _ _ => rfl
  stop := rfl
  ends := ends
  nextId := ⟨c.nextId, (Nat.zero_add _).symm, (Nat.zero_add _).symm⟩
  recorded := List.forall₂_same.mpr fun _ _ => ⟨rfl, rfl⟩

variable {α : Type} {n : Nat} {good : Nat → α → α → Prop} {one two : Rule α} {c : Cursor}

/-- Rules that read one row of tokens abreast, with equal results, have the same outcome. -/
theorem outcome_eq (abreast : Abreast self n good one two) (ends : c.stop.isEnd = true)
    (same : c.pending.length = n) (equal : ∀ m a b, good m a b → a = b) : one c = two c := by
  have meets := abreast c c (cursor_refl ends) same
  generalize one c = x at meets ⊢
  generalize two c = y at meets ⊢
  cases meets with
  | ok alike reaches isGood => rw [cursor_eq alike, equal _ _ _ isGood]
  | error alike reaches errors => rw [cursor_eq alike, error_eq errors]

theorem reaches_of_ok (abreast : Abreast self n good one two) (ends : c.stop.isEnd = true)
    (same : c.pending.length = n) {a : α} {after : Cursor} (done : one c = .ok a after) :
    after.stop.isEnd = true ∧ c.Reaches after ∧ ∃ b, good after.pending.length a b := by
  have meets := abreast c c (cursor_refl ends) same
  rw [done] at meets
  generalize two c = y at meets
  cases meets with
  | ok alike reaches isGood => exact ⟨alike.ends, reaches, _, isGood⟩

theorem not_exhausted (abreast : Abreast self n good one two) (ends : c.stop.isEnd = true)
    (same : c.pending.length = n) (after : Cursor) : one c ≠ .error .exhausted after := by
  intro spent
  have meets := abreast c c (cursor_refl ends) same
  rw [spent] at meets
  cases meets

end Reading.self
end Lox
