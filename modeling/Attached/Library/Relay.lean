import Attached.Library.Pipe

/-!
This module contains the loop that copies one pipe to another one, and relays, which run two of these
loops in opposite directions once they are set up.
-/

namespace Pipe

structure Copy (α : Type u) where
  buffer : List α
  drained : Bool
  copied : Nat
  closed : Bool
  deriving DecidableEq

inductive CopyAction where
  | read (n : Nat)
  | readEnd
  | write (n : Nat)
  | shutdown
  deriving DecidableEq

namespace Copy

def start : Copy α where
  buffer := []
  drained := false
  copied := 0
  closed := false

def step (copy : Copy α) (input output : Pipe α) (action : CopyAction)
    : Option (Copy α × Pipe α × Pipe α) :=
  match action with
  | .read n =>
    (input.receive? n).map fun (chunk, input) =>
      ({ copy with buffer := copy.buffer ++ chunk }, input, output)
  | .readEnd =>
    if copy.drained then
      none
    else
      input.receiveEnd?.map fun input => ({ copy with drained := true }, input, output)
  | .write n =>
    if copy.buffer.take n = [] then
      none
    else
      (output.send? (copy.buffer.take n)).map fun output =>
        ({ copy with
            buffer := copy.buffer.drop n
            copied := copy.copied + (copy.buffer.take n).length }, input, output)
  | .shutdown =>
    if copy.drained && copy.buffer.isEmpty && !copy.closed then
      some ({ copy with closed := true }, input, output.finish)
    else
      none

/--
The loop has written what it read, but for its buffer: after `skip`, which was read before it began,
and `lead`, which was written before it began.
-/
structure Sound (skip lead : List α) (copy : Copy α) (input output : Pipe α) : Prop where
  passed : ∃ passed, input.received = skip ++ (passed ++ copy.buffer) ∧ output.sent = lead ++ passed
    ∧ copy.copied = passed.length
  drained : copy.drained = input.finished
  closed : copy.closed = output.ended
  drained_of_closed : copy.closed = true → copy.drained = true ∧ copy.buffer = []

variable {skip lead : List α} {copy copy' : Copy α} {input output input' output' : Pipe α}
  {action : CopyAction}

structure Untouched (received sent : List α) (input output : Pipe α) : Prop where
  received : input.received = received
  finished : input.finished = false
  sent : output.sent = sent
  ended : output.ended = false

theorem Untouched.of_eq {received sent : List α} (h : Untouched received sent input output)
    (hreceived : input'.received = input.received) (hfinished : input'.finished = input.finished)
    (hsent : output'.sent = output.sent) (hended : output'.ended = output.ended)
    : Untouched received sent input' output' where
  received := hreceived.trans h.received
  finished := hfinished.trans h.finished
  sent := hsent.trans h.sent
  ended := hended.trans h.ended

theorem Untouched.carries {sent received : List α} (h : Untouched received sent input output)
    (hlead : sent <+: lead) : Carries skip lead input output := by
  intro passed hpassed hsent
  rw [h.sent] at hsent
  have hlength := hlead.length_le
  rw [hsent, List.length_append] at hlength
  exact absurd (List.eq_nil_of_length_eq_zero (by omega)) hpassed

theorem sound_start (h : Untouched skip lead input output) : Sound skip lead start input output where
  passed := ⟨[], by simp [start, h.received], by simp [h.sent], rfl⟩
  drained := h.finished.symm
  closed := h.ended.symm
  drained_of_closed := by simp [start]

theorem Sound.of_eq (h : Sound skip lead copy input output)
    (hreceived : input'.received = input.received) (hfinished : input'.finished = input.finished)
    (hsent : output'.sent = output.sent) (hended : output'.ended = output.ended)
    : Sound skip lead copy input' output' where
  passed := by
    rw [hreceived, hsent]
    exact h.passed
  drained := by rw [hfinished, h.drained]
  closed := by rw [hended, h.closed]
  drained_of_closed := h.drained_of_closed

theorem Sound.step (h : Sound skip lead copy input output)
    (hstep : copy.step input output action = some (copy', input', output'))
    : Sound skip lead copy' input' output' := by
  rcases h.passed with ⟨passed, hreceived, hsent, hcopied⟩
  cases action with
  | read n =>
    simp only [Copy.step, Option.map_eq_some_iff, Prod.mk.injEq, Prod.exists] at hstep
    rcases hstep with ⟨chunk, _, hreceive, rfl, rfl, rfl⟩
    rcases receive?_eq_some hreceive with ⟨hchunk, htake, hreceived', hfinished, _, _⟩
    refine { h with passed := ?_, drained := ?_, drained_of_closed := ?_ }
    . exact ⟨passed, by rw [hreceived', hreceived]; simp, hsent, hcopied⟩
    . rw [hfinished, h.drained]
    . intro hclosed
      have hdrained := (h.drained_of_closed hclosed).1
      rw [h.drained] at hdrained
      rw [unread_eq_nil_iff.mpr (input.complete hdrained).2] at htake
      simp [htake] at hchunk
  | readEnd =>
    simp only [Copy.step] at hstep
    split at hstep
    . cases hstep
    . simp only [Option.map_eq_some_iff, Prod.mk.injEq] at hstep
      rcases hstep with ⟨_, hend, rfl, rfl, rfl⟩
      rcases receiveEnd?_eq_some hend with ⟨_, _, hfinished, hreceived', _, _⟩
      refine { h with passed := ?_, drained := ?_, drained_of_closed := ?_ }
      . exact ⟨passed, by rw [hreceived', hreceived], hsent, hcopied⟩
      . exact hfinished.symm
      . exact fun hclosed => ⟨rfl, (h.drained_of_closed hclosed).2⟩
  | write n =>
    simp only [Copy.step] at hstep
    split at hstep
    . cases hstep
    . next hchunk =>
      simp only [Option.map_eq_some_iff, Prod.mk.injEq] at hstep
      rcases hstep with ⟨_, hsend, rfl, rfl, rfl⟩
      rcases send?_eq_some hsend with ⟨hended, hsent', hended', _, _⟩
      refine { h with passed := ?_, closed := ?_, drained_of_closed := ?_ }
      . refine ⟨passed ++ copy.buffer.take n, ?_, ?_, ?_⟩
        . rw [hreceived, List.append_assoc passed, List.take_append_drop]
        . rw [hsent', hsent, List.append_assoc]
        . simp [hcopied]
      . rw [hended', h.closed, hended]
      . intro hclosed
        dsimp only at hclosed
        rw [h.closed, hended] at hclosed
        cases hclosed
  | shutdown =>
    simp only [Copy.step] at hstep
    split at hstep
    . next hready =>
      simp only [Option.some.injEq, Prod.mk.injEq] at hstep
      rcases hstep with ⟨rfl, rfl, rfl⟩
      simp only [Bool.and_eq_true, List.isEmpty_iff] at hready
      exact { h with closed := rfl, drained_of_closed := fun _ => hready.1 }
    . cases hstep

theorem readerStep_of_step (hstep : copy.step input output action = some (copy', input', output'))
    : ReaderStep input input' := by
  cases action with
  | read n =>
    simp only [Copy.step, Option.map_eq_some_iff, Prod.mk.injEq, Prod.exists] at hstep
    rcases hstep with ⟨chunk, _, hreceive, rfl, rfl, rfl⟩
    exact (receive?_eq_some hreceive).2.2.2.2.2
  | readEnd =>
    simp only [Copy.step] at hstep
    split at hstep
    . cases hstep
    . simp only [Option.map_eq_some_iff, Prod.mk.injEq] at hstep
      rcases hstep with ⟨_, hend, rfl, rfl, rfl⟩
      exact (receiveEnd?_eq_some hend).2.2.2.2.2
  | write n =>
    simp only [Copy.step] at hstep
    split at hstep
    . cases hstep
    . simp only [Option.map_eq_some_iff, Prod.mk.injEq] at hstep
      rcases hstep with ⟨_, _, _, rfl, _⟩
      exact ReaderStep.rfl
  | shutdown =>
    simp only [Copy.step] at hstep
    split at hstep
    . simp only [Option.some.injEq, Prod.mk.injEq] at hstep
      rw [hstep.2.1]
      exact ReaderStep.rfl
    . cases hstep

theorem writerStep_of_step (hstep : copy.step input output action = some (copy', input', output'))
    : WriterStep output output' := by
  cases action with
  | read n =>
    simp only [Copy.step, Option.map_eq_some_iff, Prod.mk.injEq, Prod.exists] at hstep
    rcases hstep with ⟨chunk, _, _, _, _, rfl⟩
    exact WriterStep.rfl
  | readEnd =>
    simp only [Copy.step] at hstep
    split at hstep
    . cases hstep
    . simp only [Option.map_eq_some_iff, Prod.mk.injEq] at hstep
      rcases hstep with ⟨_, _, _, _, rfl⟩
      exact WriterStep.rfl
  | write n =>
    simp only [Copy.step] at hstep
    split at hstep
    . cases hstep
    . simp only [Option.map_eq_some_iff, Prod.mk.injEq] at hstep
      rcases hstep with ⟨_, hsend, _, _, rfl⟩
      exact (send?_eq_some hsend).2.2.2.2
  | shutdown =>
    simp only [Copy.step] at hstep
    split at hstep
    . simp only [Option.some.injEq, Prod.mk.injEq] at hstep
      rw [← hstep.2.2]
      exact output.writerStep_finish
    . cases hstep

theorem Sound.carries (h : Sound skip lead copy input output) : Carries skip lead input output := by
  rcases h.passed with ⟨passed, hreceived, hsent, _⟩
  intro passed' _ hsent'
  rw [hsent] at hsent'
  rw [hreceived, ← List.append_cancel_left hsent', ← List.append_assoc]
  exact List.prefix_append _ _

theorem Sound.delivers (h : Sound skip lead copy input output) (hended : output.ended = true)
    : Delivers skip lead input output := by
  rcases h.passed with ⟨passed, hreceived, hsent, _⟩
  rcases h.drained_of_closed (h.closed.trans hended) with ⟨hdrained, hbuffer⟩
  rw [h.drained] at hdrained
  rw [hbuffer, List.append_nil] at hreceived
  exact ⟨hdrained, passed, hreceived, hsent⟩

def system (α : Type u) : System (Copy α × Pipe α × Pipe α) CopyAction where
  init s := s.1 = start
  step s action s' := s.1.step s.2.1 s.2.2 action = some s'

structure Pumped (skip lead : List α) (input output input' output' : Pipe α) : Prop where
  reader : ReaderStep input input'
  writer : WriterStep output output'
  inputBroken : input'.broken = input.broken
  outputBroken : output'.broken = output.broken
  passed : ∃ passed, input.sent = skip ++ passed ∧ output'.sent = lead ++ passed
  ended : input.ended = true → output'.ended = true

theorem Pumped.of_delivers (h : Delivers skip lead input output) (hended : output.ended = true)
    : Pumped skip lead input output input output where
  reader := ReaderStep.rfl
  writer := WriterStep.rfl
  inputBroken := rfl
  outputBroken := rfl
  passed := by
    rcases h with ⟨hfinished, passed, hreceived, hsent⟩
    exact ⟨passed, (input.complete hfinished).2 ▸ hreceived, hsent⟩
  ended := fun _ => hended

structure Runs (skip lead : List α) (s s' : Copy α × Pipe α × Pipe α) : Prop where
  sound : s'.1.Sound skip lead s'.2.1 s'.2.2
  reader : ReaderStep s.2.1 s'.2.1
  writer : WriterStep s.2.2 s'.2.2
  inputBroken : s'.2.1.broken = s.2.1.broken
  outputBroken : s'.2.2.broken = s.2.2.broken

theorem broken_of_step (hstep : copy.step input output action = some (copy', input', output'))
    : input'.broken = input.broken ∧ output'.broken = output.broken := by
  cases action with
  | read n =>
    simp only [Copy.step, Option.map_eq_some_iff, Prod.mk.injEq, Prod.exists] at hstep
    rcases hstep with ⟨_, _, hreceive, _, rfl, rfl⟩
    exact ⟨(receive?_eq_some hreceive).2.2.2.2.1, rfl⟩
  | readEnd =>
    simp only [Copy.step] at hstep
    split at hstep
    . cases hstep
    . simp only [Option.map_eq_some_iff, Prod.mk.injEq] at hstep
      rcases hstep with ⟨_, hend, _, rfl, rfl⟩
      exact ⟨(receiveEnd?_eq_some hend).2.2.2.2.1, rfl⟩
  | write n =>
    simp only [Copy.step] at hstep
    split at hstep
    . cases hstep
    . simp only [Option.map_eq_some_iff, Prod.mk.injEq] at hstep
      rcases hstep with ⟨_, hsend, _, rfl, rfl⟩
      exact ⟨rfl, (send?_eq_some hsend).2.2.2.1⟩
  | shutdown =>
    simp only [Copy.step] at hstep
    split at hstep
    . simp only [Option.some.injEq, Prod.mk.injEq] at hstep
      rcases hstep with ⟨_, rfl, rfl⟩
      exact ⟨rfl, rfl⟩
    . cases hstep

theorem runs_of_run {s s' : Copy α × Pipe α × Pipe α} {actions : List CopyAction}
    (h : s.1.Sound skip lead s.2.1 s.2.2) (hrun : (system α).Run s actions s') : Runs skip lead s s' := by
  induction hrun with
  | nil => exact ⟨h, ReaderStep.rfl, WriterStep.rfl, rfl, rfl⟩
  | snoc _ hstep ih =>
    rcases ih with ⟨hsound, hreader, hwriter, hinput, houtput⟩
    rcases broken_of_step hstep with ⟨hinput', houtput'⟩
    exact ⟨hsound.step hstep, hreader.trans (readerStep_of_step hstep),
      hwriter.trans (writerStep_of_step hstep), hinput'.trans hinput, houtput'.trans houtput⟩

theorem exists_read (copy : Copy α) (input output : Pipe α)
    : ∃ actions copy' input', (system α).Run (copy, input, output) actions (copy', input', output)
        ∧ input'.received = input'.sent := by
  by_cases hunread : input.unread = []
  . exact ⟨[], copy, input, System.Run.nil _, unread_eq_nil_iff.mp hunread⟩
  . rcases exists_receive? hunread with ⟨input', hreceive⟩
    rcases receive?_eq_some hreceive with ⟨_, _, hreceived, _, _, hreader⟩
    have hstep : (system α).step (copy, input, output) (.read input.unread.length)
        ({ copy with buffer := copy.buffer ++ input.unread }, input', output) := by
      simp [system, Copy.step, hreceive]
    refine ⟨_, _, input', System.Run.single hstep, ?_⟩
    rw [hreceived, received_append_unread, hreader.sent]

theorem exists_write (h : Sound skip lead copy input output)
    : ∃ actions copy' output', (system α).Run (copy, input, output) actions (copy', input, output')
        ∧ copy'.buffer = [] := by
  by_cases hbuffer : copy.buffer = []
  . exact ⟨[], copy, output, System.Run.nil _, hbuffer⟩
  . have hended : output.ended = false := by
      rw [← h.closed, ← Bool.not_eq_true]
      exact fun hclosed => hbuffer (h.drained_of_closed hclosed).2
    rcases exists_send? hended copy.buffer with ⟨output', hsend⟩
    have hstep : (system α).step (copy, input, output) (.write copy.buffer.length)
        ({ copy with buffer := [], copied := copy.copied + copy.buffer.length }, input, output') := by
      simp [system, Copy.step, hbuffer, hsend]
    exact ⟨_, _, output', System.Run.single hstep, rfl⟩

theorem exists_shutdown (output : Pipe α) (hended : input.ended = true) (hreceived : input.received = input.sent)
    (hbroken : input.broken = false) (hbuffer : copy.buffer = [])
    : ∃ actions copy' input' output', (system α).Run (copy, input, output) actions (copy', input', output')
        ∧ copy'.buffer = [] ∧ copy'.closed = true := by
  have hdrain : ∃ actions copy' input', (system α).Run (copy, input, output) actions (copy', input', output)
      ∧ copy'.buffer = [] ∧ copy'.drained = true := by
    cases hdrained : copy.drained with
    | true => exact ⟨[], copy, input, System.Run.nil _, hbuffer, hdrained⟩
    | false =>
      rcases exists_receiveEnd? hended hreceived hbroken with ⟨input', hend⟩
      have hstep : (system α).step (copy, input, output) .readEnd
          ({ copy with drained := true }, input', output) := by
        simp [system, Copy.step, hdrained, hend]
      exact ⟨_, _, input', System.Run.single hstep, hbuffer, rfl⟩
  rcases hdrain with ⟨actions, copy', input', hrun, hbuffer', hdrained'⟩
  cases hclosed : copy'.closed with
  | true => exact ⟨actions, copy', input', output, hrun, hbuffer', hclosed⟩
  | false =>
    have hstep : (system α).step (copy', input', output) .shutdown
        ({ copy' with closed := true }, input', output.finish) := by
      simp [system, Copy.step, hdrained', hbuffer', hclosed]
    exact ⟨_, _, _, _, hrun.snoc hstep, hbuffer', rfl⟩

theorem exists_pumped (h : Sound skip lead copy input output) (hbroken : input.broken = false)
    : ∃ actions copy' input' output', (system α).Run (copy, input, output) actions (copy', input', output')
        ∧ Pumped skip lead input output input' output' := by
  rcases exists_read copy input output with ⟨_, copy₁, input₁, hread, hreceived⟩
  have hruns := runs_of_run h hread
  rcases exists_write hruns.sound with ⟨_, copy₂, output₂, hwrite, hbuffer⟩
  have hrun := hread.append hwrite
  have hruns := runs_of_run h hrun
  cases hended : input.ended with
  | false =>
    refine ⟨_, _, _, _, hrun, hruns.reader, hruns.writer, hruns.inputBroken, hruns.outputBroken, ?_, ?_⟩
    . rcases hruns.sound.passed with ⟨passed, hpassed, hsent, _⟩
      dsimp only at hpassed hsent
      rw [hbuffer, List.append_nil, hreceived, hruns.reader.sent] at hpassed
      exact ⟨passed, hpassed, hsent⟩
    . intro hended'
      rw [hended] at hended'
      cases hended'
  | true =>
    rcases exists_shutdown output₂ (hruns.reader.ended.trans hended) hreceived
      (hruns.inputBroken.trans hbroken) hbuffer with ⟨_, copy₃, input₃, output₃, hshutdown, hbuffer', hclosed⟩
    have hrun := hrun.append hshutdown
    have hruns' := runs_of_run h hrun
    have hrest := runs_of_run hruns.sound hshutdown
    refine ⟨_, _, _, _, hrun, hruns'.reader, hruns'.writer, hruns'.inputBroken, hruns'.outputBroken, ?_, ?_⟩
    . rcases hruns'.sound.passed with ⟨passed, hpassed, hsent, _⟩
      dsimp only at hpassed hsent
      have hall := input₃.prefix_received.eq_of_length_le (by
        rw [hruns'.reader.sent, ← hruns.reader.sent, ← hreceived]
        exact hrest.reader.received.length_le)
      rw [hbuffer', List.append_nil, hall, hruns'.reader.sent] at hpassed
      exact ⟨passed, hpassed, hsent⟩
    . exact fun _ => hruns'.sound.closed.symm.trans hclosed

end Copy

end Pipe

structure Halves (α : Type u) where
  leftIn : Pipe α
  leftOut : Pipe α
  rightIn : Pipe α
  rightOut : Pipe α

structure Halves.Step {α : Type u} (halves halves' : Halves α) : Prop where
  leftIn : Pipe.ReaderStep halves.leftIn halves'.leftIn
  leftOut : Pipe.WriterStep halves.leftOut halves'.leftOut
  rightIn : Pipe.ReaderStep halves.rightIn halves'.rightIn
  rightOut : Pipe.WriterStep halves.rightOut halves'.rightOut

inductive RelayPhase (α : Type u) where
  | setup (skip lead : List α)
  | relaying (leftToRight rightToLeft : Pipe.Copy α)
  | finished (leftToRight rightToLeft : Nat)
  | failed

namespace RelayPhase

open Pipe

variable {α : Type u} {skip lead : List α} {phase : RelayPhase α} {halves halves' : Halves α}
  {leftToRight rightToLeft : Copy α}

def Held (skip lead : List α) (phase : RelayPhase α) (halves : Halves α) : Prop :=
  match phase with
  | .setup skip' lead' =>
    skip' <+: skip ∧ lead' <+: lead ∧ Copy.Untouched [] lead' halves.leftIn halves.rightOut
      ∧ Copy.Untouched skip' [] halves.rightIn halves.leftOut
  | .relaying leftToRight rightToLeft =>
    leftToRight.Sound [] lead halves.leftIn halves.rightOut
      ∧ rightToLeft.Sound skip [] halves.rightIn halves.leftOut
  | .finished leftToRight rightToLeft =>
    (Delivers [] lead halves.leftIn halves.rightOut ∧ halves.rightOut.ended = true)
      ∧ (Delivers skip [] halves.rightIn halves.leftOut ∧ halves.leftOut.ended = true)
      ∧ leftToRight = halves.leftIn.received.length ∧ rightToLeft = halves.leftOut.sent.length
  | .failed =>
    Carries [] lead halves.leftIn halves.rightOut ∧ Carries skip [] halves.rightIn halves.leftOut

structure SameHalves (halves halves' : Halves α) : Prop where
  leftReceived : halves'.leftIn.received = halves.leftIn.received
  leftFinished : halves'.leftIn.finished = halves.leftIn.finished
  rightReceived : halves'.rightIn.received = halves.rightIn.received
  rightFinished : halves'.rightIn.finished = halves.rightIn.finished
  leftSent : halves'.leftOut.sent = halves.leftOut.sent
  leftEnded : halves'.leftOut.ended = halves.leftOut.ended
  rightSent : halves'.rightOut.sent = halves.rightOut.sent
  rightEnded : halves'.rightOut.ended = halves.rightOut.ended

theorem Held.of_same (h : phase.Held skip lead halves) (hsame : SameHalves halves halves')
    : phase.Held skip lead halves' := by
  rcases hsame with ⟨hl, hlf, hr, hrf, hls, hle, hrs, hre⟩
  cases phase with
  | setup skip' lead' =>
    exact ⟨h.1, h.2.1, h.2.2.1.of_eq hl hlf hrs hre, h.2.2.2.of_eq hr hrf hls hle⟩
  | relaying leftToRight rightToLeft => exact ⟨h.1.of_eq hl hlf hrs hre, h.2.of_eq hr hrf hls hle⟩
  | finished leftToRight rightToLeft =>
    refine ⟨⟨h.1.1.of_eq hlf hl hrs, hre.trans h.1.2⟩, ⟨h.2.1.1.of_eq hrf hr hls, hle.trans h.2.1.2⟩, ?_, ?_⟩
    . rw [hl]
      exact h.2.2.1
    . rw [hls]
      exact h.2.2.2
  | failed =>
    exact ⟨h.1.of_steps (hl ▸ List.prefix_rfl) hrs, h.2.of_steps (hr ▸ List.prefix_rfl) hls⟩

theorem Held.carries (h : phase.Held skip lead halves)
    : Carries [] lead halves.leftIn halves.rightOut ∧ Carries skip [] halves.rightIn halves.leftOut := by
  cases phase with
  | setup skip' lead' => exact ⟨h.2.2.1.carries h.2.1, h.2.2.2.carries List.prefix_rfl⟩
  | relaying leftToRight rightToLeft => exact ⟨h.1.carries, h.2.carries⟩
  | finished leftToRight rightToLeft => exact ⟨h.1.1.carries, h.2.1.1.carries⟩
  | failed => exact h

theorem Held.delivers_right (h : phase.Held skip lead halves) (hfailed : phase ≠ failed)
    (hended : halves.rightOut.ended = true) : Delivers [] lead halves.leftIn halves.rightOut := by
  cases phase with
  | setup skip' lead' =>
    rw [h.2.2.1.ended] at hended
    cases hended
  | relaying leftToRight rightToLeft => exact h.1.delivers hended
  | finished leftToRight rightToLeft => exact h.1.1
  | failed => exact absurd rfl hfailed

theorem Held.delivers_left (h : phase.Held skip lead halves) (hfailed : phase ≠ failed)
    (hended : halves.leftOut.ended = true) : Delivers skip [] halves.rightIn halves.leftOut := by
  cases phase with
  | setup skip' lead' =>
    rw [h.2.2.2.ended] at hended
    cases hended
  | relaying leftToRight rightToLeft => exact h.2.delivers hended
  | finished leftToRight rightToLeft => exact h.2.1.1
  | failed => exact absurd rfl hfailed

theorem Held.sent_right (h : (relaying leftToRight rightToLeft).Held skip lead halves)
    : ∃ passed, halves.rightOut.sent = lead ++ passed := by
  rcases h.1.passed with ⟨passed, _, hsent, _⟩
  exact ⟨passed, hsent⟩

theorem Held.fail (h : phase.Held skip lead halves) (left right : Bool)
    : failed.Held skip lead { halves with
        leftOut := halves.leftOut.drop left
        rightOut := halves.rightOut.drop right } := by
  refine ⟨h.carries.1.of_steps List.prefix_rfl ?_, h.carries.2.of_steps List.prefix_rfl ?_⟩
  . simp
  . simp

theorem Held.start (h : (setup skip lead).Held skip lead halves)
    : (relaying Copy.start Copy.start).Held skip lead halves :=
  ⟨Copy.sound_start h.2.2.1, Copy.sound_start h.2.2.2⟩

theorem Held.step_left {copy : Copy α} {leftIn rightOut : Pipe α} {action : CopyAction}
    (h : (relaying leftToRight rightToLeft).Held skip lead halves)
    (hstep : leftToRight.step halves.leftIn halves.rightOut action = some (copy, leftIn, rightOut))
    : (relaying copy rightToLeft).Held skip lead { halves with leftIn, rightOut } :=
  ⟨h.1.step hstep, h.2⟩

theorem Held.step_right {copy : Copy α} {rightIn leftOut : Pipe α} {action : CopyAction}
    (h : (relaying leftToRight rightToLeft).Held skip lead halves)
    (hstep : rightToLeft.step halves.rightIn halves.leftOut action = some (copy, rightIn, leftOut))
    : (relaying leftToRight copy).Held skip lead { halves with rightIn, leftOut } :=
  ⟨h.1, h.2.step hstep⟩

theorem Held.finish (h : (relaying leftToRight rightToLeft).Held skip lead halves)
    (hleft : leftToRight.closed = true) (hright : rightToLeft.closed = true)
    : (finished leftToRight.copied rightToLeft.copied).Held skip lead halves := by
  rcases h with ⟨hl, hr⟩
  have hrightEnded := hl.closed.symm.trans hleft
  have hleftEnded := hr.closed.symm.trans hright
  refine ⟨⟨hl.delivers hrightEnded, hrightEnded⟩, ⟨hr.delivers hleftEnded, hleftEnded⟩, ?_, ?_⟩
  . rcases hl.passed with ⟨passed, hreceived, _, hcopied⟩
    rw [hcopied, hreceived, (hl.drained_of_closed hleft).2]
    simp
  . rcases hr.passed with ⟨passed, _, hsent, hcopied⟩
    rw [hcopied, hsent]
    simp

end RelayPhase
