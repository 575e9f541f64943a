import Lox.Proofs.Position.Survival

set_option autoImplicit false

/-! Where reading goes on after an error. The token at which an error is caught is left out unread; behind
it nothing is left out that begins a statement, and all errors are reported. -/

namespace Lox.Grammar

/-- The walker with which reading a row ends. -/
def lastWalker (tokens : List Token) (firstId : NodeId) : Walker :=
  Outcome.state (walk tokens firstId)

/-- What is known of the last walker, however reading ends. -/
structure Walker.Ended (w : Walker) (tokens : List Token) (firstId : NodeId) : Prop where
  row : w.row = closedRow tokens
  sound : w.Sound (parse tokens firstId).errors.reverse
  settled : awaited w.row w.journal = []

theorem lastWalker_ended (tokens : List Token) (firstId : NodeId) :
    (lastWalker tokens firstId).Ended tokens firstId := by
  obtain ⟨same, ends⟩ := walk_ends tokens firstId
  rw [lastWalker]
  generalize walk tokens firstId = outcome at same ends
  cases ends with
  | finished row finished =>
      refine ⟨row, ?_, finished.settled⟩
      simpa [same, parseOf, Parse.errors, Outcome.state] using finished.toSound
  | stopped row fatal stopped =>
      refine ⟨row, ?_, stopped.settled⟩
      simpa [same, parseOf, Parse.errors, Outcome.state] using stopped.toSound

/-- A keyword that begins statements is passed by a rule, unless it is a token at which an error was
caught. -/
theorem passed_of_startsAt {w : Walker} {errors : List SyntaxError} (sound : w.Sound errors)
    {position : Nat} (before : position < w.current) (starts : startsAt w.row position) :
    .passed position ∈ w.journal ∨ ∃ e resumed, .recovered e position resumed ∈ w.journal := by
  have member : position ∈ consumed w.journal := by
    rw [sound.consumed]
    exact List.mem_range.mpr before
  obtain ⟨event, happened, inside⟩ := List.mem_flatMap.mp member
  have happened := List.mem_reverse.mp happened
  cases event with
  | passed other =>
      rw [List.mem_singleton.mp inside]
      exact .inl happened
  | recovered e caught resumed =>
      refine .inr ⟨e, resumed, ?_⟩
      have fair : Resumes w.row caught resumed := sound.fair _ happened
      obtain ⟨low, high⟩ := List.mem_range'_1.mp inside
      rcases Nat.eq_or_lt_of_le low with rfl | behind
      · exact happened
      · rw [Resumes] at fair
        split at fair
        · omega
        · have least := fair.2 ⟨behind, .inr (.inl starts)⟩
          omega
  | raised e => cases inside
  | opened start => cases inside
  | closed start finish => cases inside

/-- Reading goes on, after an error that was caught at some token, at the end if this is that token, and
else at the first place behind the token where the row ends, a keyword begins a statement, or a
semicolon was just left out. If it goes on at such a keyword, a declaration is begun there later. Of all
keywords that begin statements, only those at which an error was caught are not passed by a rule, and
every error that is met anywhere is reported, in the order in which they are met. -/
theorem recovery_resumes (tokens : List Token) (firstId : NodeId) {e : SyntaxError}
    {caught resumed : Nat} {later earlier : List Event}
    (happened : (lastWalker tokens firstId).journal =
      later ++ .recovered e caught resumed :: earlier) :
    let row := closedRow tokens
    Resumes row caught resumed ∧
      (∀ position, caught < position → position < resumed → startsAt row position = false) ∧
      (startsAt row resumed → .opened resumed ∈ later) ∧
      (∀ position < (lastWalker tokens firstId).current, startsAt row position →
        .passed position ∈ (lastWalker tokens firstId).journal ∨
          ∃ e resumed, .recovered e position resumed ∈ (lastWalker tokens firstId).journal) ∧
      (raised (lastWalker tokens firstId).journal).reverse = (parse tokens firstId).errors := by
  have ended := lastWalker_ended tokens firstId
  generalize lastWalker tokens firstId = w at happened ended
  have sound := ended.sound
  have settled := ended.settled
  rw [← ended.row]
  have resumes : Resumes w.row caught resumed :=
    sound.fair (.recovered e caught resumed) (by
      rw [happened]
      exact List.mem_append_right _ (.head _))
  refine ⟨resumes, fun position behind before => ?_, fun starts => ?_, ?_, ?_⟩
  · refine eq_false_of_ne_true fun starts => ?_
    rw [Resumes] at resumes
    split at resumes
    · omega
    · exact Nat.not_le_of_lt before (resumes.2 ⟨behind, .inr (.inl starts)⟩)
  · have missing : resumed ∉ awaited w.row (later ++ .recovered e caught resumed :: earlier) := by
      rw [← happened, settled]
      exact List.not_mem_nil
    exact opened_of_not_awaited starts missing
  · exact fun position before starts => passed_of_startsAt sound before starts
  · rw [sound.raised, List.reverse_reverse]

/-- After `print ;` reading goes on at the next word, where a declaration is begun. -/
theorem recovery_resumes_at_print :
    let wrong : Token := ⟨.symbol .semicolon, ";", 7⟩
    let tokens : List Token := [⟨.keyword .printWord, "print", 5⟩, wrong,
      ⟨.keyword .printWord, "print", 13⟩, ⟨.keyword .nilWord, "nil", 17⟩, ⟨.symbol .semicolon, ";", 18⟩]
    let later : List Event := [.closed 2 5, .passed 4, .passed 3, .passed 2, .opened 2, .closed 0 2]
    let earlier : List Event := [.raised ⟨.expression, wrong⟩, .passed 0, .opened 0]
    (lastWalker tokens 0).journal = later ++ .recovered ⟨.expression, wrong⟩ 1 2 :: earlier ∧
      Resumes (closedRow tokens) 1 2 ∧ .opened 2 ∈ later := by
  intro wrong tokens later earlier
  have happened : (lastWalker tokens 0).journal =
      later ++ .recovered ⟨.expression, wrong⟩ 1 2 :: earlier := rfl
  obtain ⟨resumes, -, opens, -⟩ := recovery_resumes tokens 0 happened
  exact ⟨happened, resumes, opens rfl⟩

/-- In `print print nil;` the second word is where the error is caught. It begins a statement, but
reading does not go on there. -/
theorem recovery_leaves_out_keyword : ¬ ∀ (tokens : List Token) (e : SyntaxError) (caught resumed : Nat),
    .recovered e caught resumed ∈ (lastWalker tokens 0).journal →
      IsLeast {position | caught ≤ position ∧ (endsAt (closedRow tokens) position ∨
        startsAt (closedRow tokens) position ∨
        caught < position ∧ semicolonAt (closedRow tokens) (position - 1))} resumed := by
  intro claimed
  let second : Token := ⟨.keyword .printWord, "print", 11⟩
  let tokens : List Token := [⟨.keyword .printWord, "print", 5⟩, second,
    ⟨.keyword .nilWord, "nil", 15⟩, ⟨.symbol .semicolon, ";", 16⟩]
  have journal : (lastWalker tokens 0).journal =
      [.closed 0 4, .recovered ⟨.expression, second⟩ 1 4, .raised ⟨.expression, second⟩, .passed 0,
        .opened 0] := rfl
  have least := claimed tokens ⟨.expression, second⟩ 1 4 (by rw [journal]; exact .tail _ (.head _))
  have early : 4 ≤ 1 := least.2 ⟨Nat.le_refl 1, .inr (.inl rfl)⟩
  omega

end Lox.Grammar
