import Mathlib.Tactic.Common
import Attached.Library.Transition

/-!
This module contains pipes, which carry values in order from a writer to a reader, and what a chain of
them looks like from its two ends.
-/

/--
A pipe. The reader received a prefix of what was sent. It finds the end of the pipe only after all of
it, and only if the writer ended the pipe.
-/
structure Pipe (α : Type u) where
  sent : List α
  ended : Bool
  received : List α
  finished : Bool
  broken : Bool
  prefix_received : received <+: sent
  complete : finished = true → ended = true ∧ received = sent

namespace Pipe

variable {α : Type u} {pipe pipe' : Pipe α} {chunk : List α} {n : Nat}

def empty : Pipe α where
  sent := []
  ended := false
  received := []
  finished := false
  broken := false
  prefix_received := List.prefix_rfl
  complete := by simp

def unread (pipe : Pipe α) : List α :=
  pipe.sent.drop pipe.received.length

theorem received_append_unread (pipe : Pipe α) : pipe.received ++ pipe.unread = pipe.sent := by
  rcases pipe.prefix_received with ⟨rest, hrest⟩
  rw [unread, ← hrest, List.drop_left]

theorem unread_eq_nil_iff : pipe.unread = [] ↔ pipe.received = pipe.sent := by
  constructor
  . intro h
    simpa [h] using pipe.received_append_unread
  . intro h
    rw [unread, h, List.drop_length]

def send? (pipe : Pipe α) (chunk : List α) : Option (Pipe α) :=
  if h : pipe.ended = true then
    none
  else
    some { pipe with
      sent := pipe.sent ++ chunk
      prefix_received := pipe.prefix_received.trans (List.prefix_append _ _)
      complete := fun hfinished => absurd (pipe.complete hfinished).1 h }

def finish (pipe : Pipe α) : Pipe α :=
  { pipe with
    ended := true
    complete := fun hfinished => ⟨rfl, (pipe.complete hfinished).2⟩ }

def receive? (pipe : Pipe α) (n : Nat) : Option (List α × Pipe α) :=
  if h : pipe.unread.take n = [] then
    none
  else
    some (pipe.unread.take n, { pipe with
      received := pipe.received ++ pipe.unread.take n
      prefix_received := by
        refine ⟨pipe.unread.drop n, ?_⟩
        rw [List.append_assoc, List.take_append_drop, received_append_unread]
      complete := by
        intro hfinished
        rw [unread_eq_nil_iff.mpr (pipe.complete hfinished).2] at h
        simp at h })

def receiveEnd? (pipe : Pipe α) : Option (Pipe α) :=
  if h : pipe.ended = true ∧ pipe.unread = [] ∧ pipe.broken = false then
    some { pipe with
      finished := true
      complete := fun _ => ⟨h.1, unread_eq_nil_iff.mp h.2.1⟩ }
  else
    none

def fail (pipe : Pipe α) : Pipe α :=
  { pipe with broken := true }

def drop (pipe : Pipe α) (graceful : Bool) : Pipe α :=
  if pipe.ended then
    pipe
  else if graceful then
    pipe.finish
  else
    pipe.fail

structure WriterStep (pipe pipe' : Pipe α) : Prop where
  sent : pipe.sent <+: pipe'.sent
  received : pipe'.received = pipe.received
  finished : pipe'.finished = pipe.finished

structure ReaderStep (pipe pipe' : Pipe α) : Prop where
  sent : pipe'.sent = pipe.sent
  ended : pipe'.ended = pipe.ended
  received : pipe.received <+: pipe'.received

theorem WriterStep.rfl : WriterStep pipe pipe :=
  ⟨List.prefix_rfl, Eq.refl _, Eq.refl _⟩

theorem ReaderStep.rfl : ReaderStep pipe pipe :=
  ⟨Eq.refl _, Eq.refl _, List.prefix_rfl⟩

theorem WriterStep.trans {pipe'' : Pipe α} (h : WriterStep pipe pipe') (h' : WriterStep pipe' pipe'')
    : WriterStep pipe pipe'' :=
  ⟨h.sent.trans h'.sent, h'.received.trans h.received, h'.finished.trans h.finished⟩

theorem ReaderStep.trans {pipe'' : Pipe α} (h : ReaderStep pipe pipe') (h' : ReaderStep pipe' pipe'')
    : ReaderStep pipe pipe'' :=
  ⟨h'.sent.trans h.sent, h'.ended.trans h.ended, h.received.trans h'.received⟩

theorem send?_eq_some (h : pipe.send? chunk = some pipe')
    : pipe.ended = false ∧ pipe'.sent = pipe.sent ++ chunk ∧ pipe'.ended = false
        ∧ pipe'.broken = pipe.broken ∧ WriterStep pipe pipe' := by
  simp only [send?] at h
  split at h
  . cases h
  . next hended =>
    rw [Bool.not_eq_true] at hended
    rw [Option.some.injEq] at h
    subst h
    exact ⟨hended, rfl, hended, rfl, List.prefix_append _ _, rfl, rfl⟩

theorem exists_send? (hended : pipe.ended = false) (chunk : List α)
    : ∃ pipe', pipe.send? chunk = some pipe' := by
  simp [send?, hended]

theorem receive?_eq_some (h : pipe.receive? n = some (chunk, pipe'))
    : chunk ≠ [] ∧ chunk = pipe.unread.take n ∧ pipe'.received = pipe.received ++ chunk
        ∧ pipe'.finished = pipe.finished ∧ pipe'.broken = pipe.broken
        ∧ ReaderStep pipe pipe' := by
  simp only [receive?] at h
  split at h
  . cases h
  . next hchunk =>
    simp only [Option.some.injEq, Prod.mk.injEq] at h
    rcases h with ⟨rfl, rfl⟩
    exact ⟨hchunk, rfl, rfl, rfl, rfl, rfl, rfl, List.prefix_append _ _⟩

theorem receiveEnd?_eq_some (h : pipe.receiveEnd? = some pipe')
    : pipe.ended = true ∧ pipe.received = pipe.sent ∧ pipe'.finished = true
        ∧ pipe'.received = pipe.received ∧ pipe'.broken = pipe.broken ∧ ReaderStep pipe pipe' := by
  simp only [receiveEnd?] at h
  split at h
  . next hend =>
    rw [Option.some.injEq] at h
    subst h
    exact ⟨hend.1, unread_eq_nil_iff.mp hend.2.1, rfl, rfl, rfl, rfl, rfl, List.prefix_rfl⟩
  . cases h

theorem exists_receiveEnd? (hended : pipe.ended = true) (hreceived : pipe.received = pipe.sent)
    (hbroken : pipe.broken = false) : ∃ pipe', pipe.receiveEnd? = some pipe' := by
  simp [receiveEnd?, hended, unread_eq_nil_iff.mpr hreceived, hbroken]

theorem exists_receive? (hunread : pipe.unread ≠ [])
    : ∃ pipe', pipe.receive? pipe.unread.length = some (pipe.unread, pipe') := by
  simp [receive?, hunread]

inductive ReadAction where
  | receive (n : Nat)
  | receiveEnd
  deriving DecidableEq

def readSystem (α : Type u) : System (Pipe α) ReadAction where
  init pipe := pipe = empty
  step pipe action pipe' :=
    match action with
    | .receive n => (pipe.receive? n).map Prod.snd = some pipe'
    | .receiveEnd => pipe.receiveEnd? = some pipe'

theorem exists_read (hbroken : pipe.broken = false)
    : ∃ actions pipe', (readSystem α).Run pipe actions pipe' ∧ ReaderStep pipe pipe'
        ∧ pipe'.received = pipe.sent ∧ pipe'.finished = pipe.ended ∧ pipe'.broken = false := by
  have hrest : ∃ actions pipe', (readSystem α).Run pipe actions pipe' ∧ ReaderStep pipe pipe'
      ∧ pipe'.received = pipe.sent ∧ pipe'.broken = false := by
    by_cases hunread : pipe.unread = []
    . exact ⟨[], pipe, System.Run.nil _, ReaderStep.rfl, unread_eq_nil_iff.mp hunread, hbroken⟩
    . rcases exists_receive? hunread with ⟨pipe', hreceive⟩
      rcases receive?_eq_some hreceive with ⟨_, _, hreceived, _, hbroken', hreader⟩
      have hstep : (readSystem α).step pipe (.receive pipe.unread.length) pipe' := by
        simp [readSystem, hreceive]
      refine ⟨_, pipe', System.Run.single hstep, hreader, ?_, ?_⟩
      . rw [hreceived, received_append_unread]
      . rw [hbroken', hbroken]
  rcases hrest with ⟨actions, pipe', hrun, hreader, hreceived, hbroken'⟩
  rw [← hreader.sent] at hreceived
  by_cases hended : pipe'.ended = true
  . rcases exists_receiveEnd? hended hreceived hbroken' with ⟨pipe'', hend⟩
    rcases receiveEnd?_eq_some hend with ⟨_, _, hfinished, hreceived', hbroken'', hreader'⟩
    have hstep : (readSystem α).step pipe' .receiveEnd pipe'' := hend
    refine ⟨_, pipe'', hrun.snoc hstep, hreader.trans hreader', ?_, ?_, ?_⟩
    . rw [hreceived', hreceived, hreader.sent]
    . rw [hfinished, ← hreader.ended, hended]
    . rw [hbroken'', hbroken']
  . refine ⟨actions, pipe', hrun, hreader, hreceived.trans hreader.sent, ?_, hbroken'⟩
    rw [← hreader.ended, Bool.eq_iff_iff]
    exact ⟨fun hfinished => (pipe'.complete hfinished).1, fun h => absurd h hended⟩

theorem writerStep_finish (pipe : Pipe α) : WriterStep pipe pipe.finish :=
  ⟨List.prefix_rfl, rfl, rfl⟩

theorem writerStep_fail (pipe : Pipe α) : WriterStep pipe pipe.fail :=
  ⟨List.prefix_rfl, rfl, rfl⟩

theorem readerStep_fail (pipe : Pipe α) : ReaderStep pipe pipe.fail :=
  ⟨rfl, rfl, List.prefix_rfl⟩

theorem writerStep_drop (pipe : Pipe α) (graceful : Bool) : WriterStep pipe (pipe.drop graceful) := by
  simp only [drop]
  split
  . exact WriterStep.rfl
  . split
    . exact pipe.writerStep_finish
    . exact pipe.writerStep_fail

@[simp]
theorem sent_finish (pipe : Pipe α) : pipe.finish.sent = pipe.sent :=
  rfl

@[simp]
theorem ended_finish (pipe : Pipe α) : pipe.finish.ended = true :=
  rfl

@[simp]
theorem broken_finish (pipe : Pipe α) : pipe.finish.broken = pipe.broken :=
  rfl

@[simp]
theorem sent_fail (pipe : Pipe α) : pipe.fail.sent = pipe.sent :=
  rfl

@[simp]
theorem ended_fail (pipe : Pipe α) : pipe.fail.ended = pipe.ended :=
  rfl

@[simp]
theorem sent_drop (pipe : Pipe α) (graceful : Bool) : (pipe.drop graceful).sent = pipe.sent := by
  simp only [drop]
  split
  . rfl
  . split <;> rfl

/--
What was sent to `output` after the values `lead` was received from `input` after the values `skip`.
-/
def Carries (skip lead : List α) (input output : Pipe α) : Prop :=
  ∀ passed, passed ≠ [] → output.sent = lead ++ passed → skip ++ passed <+: input.received

def Delivers (skip lead : List α) (input output : Pipe α) : Prop :=
  input.finished = true ∧ ∃ passed, input.received = skip ++ passed ∧ output.sent = lead ++ passed

section

variable {skip lead lead' : List α} {input middle output input' output' : Pipe α}

theorem Carries.of_steps (h : Carries skip lead input output)
    (hinput : input.received <+: input'.received) (houtput : output'.sent = output.sent)
    : Carries skip lead input' output' := by
  intro passed hpassed hsent
  exact (h passed hpassed (houtput ▸ hsent)).trans hinput

theorem Carries.prefix_received (h : Carries [] [] input output) : output.received <+: input.sent := by
  apply output.prefix_received.trans
  by_cases hsent : output.sent = []
  . rw [hsent]
    exact List.nil_prefix
  . exact (h output.sent hsent rfl).trans input.prefix_received

theorem Carries.trans (h : Carries skip lead input middle) (h' : Carries lead lead' middle output)
    : Carries skip lead' input output := by
  intro passed hpassed hsent
  rcases (h' passed hpassed hsent).trans middle.prefix_received with ⟨rest, hrest⟩
  rw [List.append_assoc] at hrest
  have hcarried := h (passed ++ rest) (by simp [hpassed]) hrest.symm
  rw [← List.append_assoc] at hcarried
  exact (List.prefix_append _ _).trans hcarried

theorem Delivers.carries (h : Delivers skip lead input output) : Carries skip lead input output := by
  rcases h with ⟨_, passed, hreceived, hsent⟩
  intro passed' _ hsent'
  rw [hsent] at hsent'
  have hpassed : passed = passed' := List.append_cancel_left hsent'
  subst hpassed
  exact hreceived ▸ List.prefix_refl _

theorem Delivers.of_eq (h : Delivers skip lead input output)
    (hfinished : input'.finished = input.finished) (hreceived : input'.received = input.received)
    (hsent : output'.sent = output.sent) : Delivers skip lead input' output' := by
  rw [Delivers, hfinished, hreceived, hsent]
  exact h

theorem Delivers.trans (h : Delivers skip lead input middle) (h' : Delivers lead lead' middle output)
    : Delivers skip lead' input output := by
  rcases h with ⟨hfinished, passed, hreceived, hsent⟩
  rcases h' with ⟨hfinished', passed', hreceived', hsent'⟩
  rw [(middle.complete hfinished').2, hsent] at hreceived'
  rw [List.append_cancel_left hreceived'] at hreceived
  exact ⟨hfinished, passed', hreceived, hsent'⟩

theorem Delivers.received_eq (h : Delivers [] [] input output) (hfinished : output.finished = true)
    : input.ended = true ∧ output.received = input.sent := by
  rcases h with ⟨hinput, passed, hreceived, hsent⟩
  rcases input.complete hinput with ⟨hended, hall⟩
  rw [(output.complete hfinished).2, hsent, ← hall, hreceived]
  exact ⟨hended, rfl⟩

end

/--
What a chain of pipes looks like from its two ends. It may be cut in between, and then the
reader may find an end that the writer did not send.
-/
structure Ends (α : Type u) where
  sent : List α
  ended : Bool
  received : List α
  finished : Bool
  cut : Bool
  deriving DecidableEq

inductive EndsEvent (α : Type u) where
  | send (chunk : List α)
  | finish
  | receive (chunk : List α)
  | receiveEnd
  | cut

namespace Ends

variable {ends ends' : Ends α}

def empty : Ends α where
  sent := []
  ended := false
  received := []
  finished := false
  cut := false

def step (ends : Ends α) (event : EndsEvent α) (ends' : Ends α) : Prop :=
  match event with
  | .send chunk => ends.ended = false ∧ ends' = { ends with sent := ends.sent ++ chunk }
  | .finish => ends' = { ends with ended := true }
  | .receive chunk =>
    ends.finished = false ∧ ends.received ++ chunk <+: ends.sent
      ∧ ends' = { ends with received := ends.received ++ chunk }
  | .receiveEnd =>
    (ends.cut = true ∨ ends.ended = true ∧ ends.received = ends.sent)
      ∧ ends' = { ends with finished := true }
  | .cut => ends' = { ends with cut := true }

end Ends

def endsSystem (α : Type u) : System (Ends α) (EndsEvent α) where
  init ends := ends = Ends.empty
  step := Ends.step

namespace Ends

variable {ends ends' : Ends α}

structure Sound (ends : Ends α) : Prop where
  received : ends.received <+: ends.sent
  finished : ends.finished = true → ends.cut = false → ends.ended = true ∧ ends.received = ends.sent

theorem Sound.step {event : EndsEvent α} (h : Sound ends) (hstep : ends.step event ends')
    : Sound ends' := by
  cases event with
  | send chunk =>
    rcases hstep with ⟨hended, rfl⟩
    refine ⟨h.received.trans (List.prefix_append _ _), ?_⟩
    intro hfinished hcut
    rw [(h.finished hfinished hcut).1] at hended
    cases hended
  | finish =>
    cases hstep
    exact ⟨h.received, fun hfinished hcut => ⟨rfl, (h.finished hfinished hcut).2⟩⟩
  | receive chunk =>
    rcases hstep with ⟨hfinished, hpre, rfl⟩
    refine ⟨hpre, ?_⟩
    intro hfinished'
    dsimp only at hfinished'
    rw [hfinished] at hfinished'
    cases hfinished'
  | receiveEnd =>
    rcases hstep with ⟨hend, rfl⟩
    refine ⟨h.received, ?_⟩
    intro _ hcut
    rcases hend with hcut' | hend
    . dsimp only at hcut
      rw [hcut] at hcut'
      cases hcut'
    . exact hend
  | cut =>
    cases hstep
    exact ⟨h.received, by simp⟩

theorem sound_of_reachable (h : (endsSystem α).Reachable ends) : Sound ends := by
  apply h.invariant
  . rintro _ rfl
    exact ⟨List.prefix_rfl, by simp [empty]⟩
  . exact fun hs hstep => hs.step hstep

end Ends

end Pipe
