import Attached.Library.Simulation
import Attached.Forward.Stream
import Attached.Update.FramesLemmas

/-!
This module contains the proof that a forwarded connection carries in each direction exactly what its
writer sent, and nothing of what sets up the stream in between.
-/

namespace Attached

open Pipe (Copy CopyAction ReaderStep WriterStep)

namespace Forward

variable {halves halves' : Halves UInt8} {copy copy' : Copy UInt8} {copyAction : CopyAction}

theorem statusFrame_eq (status : TcpForwardStatus) : statusFrame status = [Frames.statusByte status] := by
  cases status <;> rfl

theorem halvesStep_rfl : Halves.Step halves halves :=
  ⟨ReaderStep.rfl, WriterStep.rfl, ReaderStep.rfl, WriterStep.rfl⟩

theorem halvesStep_dropHalves (halves : Halves UInt8) (left right : Bool)
    : Halves.Step halves (dropHalves halves left right) :=
  ⟨ReaderStep.rfl, Pipe.writerStep_drop _ _, ReaderStep.rfl, Pipe.writerStep_drop _ _⟩

theorem copyLeftToRight_eq_some (h : copyLeftToRight halves copy copyAction = some (copy', halves'))
    : ∃ leftIn rightOut, copy.step halves.leftIn halves.rightOut copyAction = some (copy', leftIn, rightOut)
        ∧ halves' = { halves with leftIn, rightOut } ∧ Halves.Step halves halves' := by
  simp only [copyLeftToRight, Option.map_eq_some_iff, Prod.exists, Prod.mk.injEq] at h
  rcases h with ⟨_, leftIn, rightOut, hstep, rfl, rfl⟩
  exact ⟨leftIn, rightOut, hstep, rfl, Pipe.Copy.readerStep_of_step hstep, WriterStep.rfl, ReaderStep.rfl,
    Pipe.Copy.writerStep_of_step hstep⟩

theorem copyRightToLeft_eq_some (h : copyRightToLeft halves copy copyAction = some (copy', halves'))
    : ∃ rightIn leftOut, copy.step halves.rightIn halves.leftOut copyAction = some (copy', rightIn, leftOut)
        ∧ halves' = { halves with rightIn, leftOut } ∧ Halves.Step halves halves' := by
  simp only [copyRightToLeft, Option.map_eq_some_iff, Prod.exists, Prod.mk.injEq] at h
  rcases h with ⟨_, rightIn, leftOut, hstep, rfl, rfl⟩
  exact ⟨rightIn, leftOut, hstep, rfl, ReaderStep.rfl, Pipe.Copy.writerStep_of_step hstep,
    Pipe.Copy.readerStep_of_step hstep, WriterStep.rfl⟩

theorem copyStats?_eq_some {leftToRight rightToLeft : Copy UInt8} {stats : CopyStats}
    (h : copyStats? leftToRight rightToLeft = some stats)
    : leftToRight.closed = true ∧ rightToLeft.closed = true
        ∧ stats = { leftToRight := leftToRight.copied, rightToLeft := rightToLeft.copied } := by
  simp only [copyStats?] at h
  split at h
  . next hclosed =>
    rw [Bool.and_eq_true] at hclosed
    rw [Option.some.injEq] at h
    exact ⟨hclosed.1, hclosed.2, h.symm⟩
  . cases h

theorem readFrame?_eq_some {β : Type} {reader : Reader String β} {pipe pipe' : Pipe UInt8}
    {result : Except String β} (h : readFrame? reader pipe = some (result, pipe'))
    : ReaderStep pipe pipe'
        ∧ ((∃ b, result = (reader.run [b]).map Prod.fst ∧ pipe'.received = pipe.received ++ [b]
            ∧ pipe'.finished = pipe.finished)
          ∨ result = (reader.run []).map Prod.fst) := by
  simp only [readFrame?] at h
  split at h
  . next frame pipe'' hreceive =>
    rw [Option.some.injEq, Prod.mk.injEq] at h
    rcases h with ⟨rfl, rfl⟩
    rcases Pipe.receive?_eq_some hreceive with ⟨hframe, htake, hreceived, hfinished, _, hreader⟩
    refine ⟨hreader, Or.inl ?_⟩
    rcases hunread : pipe.unread with _ | ⟨b, rest⟩
    . rw [hunread] at htake
      exact absurd htake hframe
    . rw [hunread] at htake
      simp only [List.take_succ_cons, List.take_zero] at htake
      subst htake
      exact ⟨b, rfl, hreceived, hfinished⟩
  . simp only [Option.map_eq_some_iff, Prod.mk.injEq] at h
    rcases h with ⟨_, hend, rfl, rfl⟩
    exact ⟨(Pipe.receiveEnd?_eq_some hend).2.2.2.2.2, Or.inr rfl⟩

theorem readFrame?_eq_ok {β : Type} {reader : Reader String β} {pipe pipe' : Pipe UInt8} {value : β}
    {byte : UInt8} (haccepts : ∀ {input rest}, reader.run input = .ok (value, rest) → input = byte :: rest)
    (h : readFrame? reader pipe = some (.ok value, pipe'))
    : pipe'.received = pipe.received ++ [byte] ∧ pipe'.finished = pipe.finished := by
  have hrun : ∀ {input : List UInt8}, .ok value = (reader.run input).map Prod.fst →
      ∃ rest, input = byte :: rest := by
    intro input heq
    rcases hresult : reader.run input with error | ⟨value', rest⟩
    . rw [hresult] at heq
      cases heq
    . rw [hresult] at heq
      cases heq
      exact ⟨rest, haccepts hresult⟩
  rcases (readFrame?_eq_some h).2 with ⟨b, hresult, hreceived, hfinished⟩ | hresult
  . rcases hrun hresult with ⟨rest, heq⟩
    cases heq
    exact ⟨hreceived, hfinished⟩
  . rcases hrun hresult with ⟨rest, heq⟩
    cases heq

end Forward

open Forward RelayPhase

def ForwardPhase.relayPhase (phase : ForwardPhase) : RelayPhase UInt8 :=
  match phase with
  | .connecting | .opening => .setup [] []
  | .awaitingStatus => .setup [] openMarker
  | .relaying leftToRight rightToLeft => .relaying leftToRight rightToLeft
  | .finished stats => .finished stats.leftToRight stats.rightToLeft
  | .failed _ => .failed

def ServePhase.relayPhase (phase : ServePhase) : RelayPhase UInt8 :=
  match phase with
  | .waiting | .accepted => .setup [] []
  | .dialing _ | .ready | .refusing _ => .setup openMarker []
  | .relaying leftToRight rightToLeft => .relaying leftToRight rightToLeft
  | .finished stats => .finished stats.leftToRight stats.rightToLeft
  | .rejected | .failed _ => .failed

def ForwardPhase.Sound (phase : ForwardPhase) (halves : Halves UInt8) : Prop :=
  phase.relayPhase.Held (statusFrame .ready) openMarker halves

def StreamTask.Sound (task : StreamTask) (halves : Halves UInt8) : Prop :=
  task.phase.relayPhase.Held openMarker (statusFrame .ready) halves

namespace Forward

variable {halves halves' : Halves UInt8}

theorem held_setup_read {skip lead lead' : List UInt8} {rightIn : Pipe UInt8}
    (h : (setup [] lead').Held skip lead halves) (hreceived : rightIn.received = halves.rightIn.received ++ skip)
    (hfinished : rightIn.finished = halves.rightIn.finished)
    : (setup skip lead').Held skip lead { halves with rightIn } := by
  rcases h with ⟨_, hlead, hleft, hright⟩
  refine ⟨List.prefix_rfl, hlead, hleft, ?_, ?_, hright.sent, hright.ended⟩
  . rw [hreceived, hright.received, List.nil_append]
  . rw [hfinished, hright.finished]

theorem held_setup_write {skip skip' lead : List UInt8} {rightOut : Pipe UInt8}
    (h : (setup skip' []).Held skip lead halves) (hsend : halves.rightOut.send? lead = some rightOut)
    : (setup skip' lead).Held skip lead { halves with rightOut } := by
  rcases h with ⟨hskip, _, hleft, hright⟩
  rcases Pipe.send?_eq_some hsend with ⟨_, hsent, hended, _, _⟩
  refine ⟨hskip, List.prefix_rfl, ⟨hleft.received, hleft.finished, ?_, hended⟩, hright⟩
  rw [hsent, hleft.sent, List.nil_append]

theorem held_failed_of_read {skip skip' lead lead' : List UInt8} {rightIn : Pipe UInt8}
    (h : (setup skip' lead').Held skip lead halves) (left right : Bool)
    (hreader : ReaderStep halves.rightIn rightIn)
    : RelayPhase.failed.Held skip lead (dropHalves { halves with rightIn } left right) := by
  have hfailed : RelayPhase.failed.Held skip lead { halves with rightIn } :=
    ⟨h.carries.1, h.carries.2.of_steps hreader.received rfl⟩
  exact hfailed.fail left right

theorem held_failed_of_refusal {skip skip' : List UInt8} {rightOut : Pipe UInt8}
    (h : (setup skip' []).Held skip (statusFrame .ready) halves)
    (hsent : rightOut.sent = halves.rightOut.sent ++ statusFrame .connectionFailed)
    : RelayPhase.failed.Held skip (statusFrame .ready) { halves with rightOut := rightOut.finish } := by
  refine ⟨?_, h.carries.2⟩
  intro passed _ hready
  rw [Pipe.sent_finish, hsent, h.2.2.1.sent, statusFrame_eq, statusFrame_eq] at hready
  cases hready

end Forward

namespace ForwardPhase

variable {port : UInt16} {phase phase' : ForwardPhase} {halves halves' : Halves UInt8}
  {action : ForwardAction}

theorem Sound.step (h : phase.Sound halves)
    (hstep : phase.step port halves action = some (phase', halves'))
    : phase'.Sound halves' ∧ Halves.Step halves halves' := by
  have hfail : ∀ {error : String} {left right : Bool},
      (failed error).Sound (dropHalves halves left right)
        ∧ Halves.Step halves (dropHalves halves left right) :=
    ⟨Held.fail h _ _, halvesStep_dropHalves _ _ _⟩
  unfold ForwardPhase.step at hstep
  split at hstep
  . cases hstep
    exact ⟨h, halvesStep_rfl⟩
  . simp only [Option.map_eq_some_iff, Prod.mk.injEq] at hstep
    rcases hstep with ⟨rightOut, hsend, rfl, rfl⟩
    exact ⟨held_setup_write h hsend, ReaderStep.rfl, WriterStep.rfl, ReaderStep.rfl,
      (Pipe.send?_eq_some hsend).2.2.2.2⟩
  . next left right =>
    simp only [Option.map_eq_some_iff, Prod.exists] at hstep
    rcases hstep with ⟨result, rightIn, hread, heq⟩
    have hreader := (readFrame?_eq_some hread).1
    have hdropped : Halves.Step halves (dropHalves { halves with rightIn } left right) :=
      ⟨ReaderStep.rfl, Pipe.writerStep_drop _ _, hreader, Pipe.writerStep_drop _ _⟩
    split at heq
    . cases heq
      have hread' := readFrame?_eq_ok (fun hrun => Frames.run_readTcpForwardStatus.mp hrun) hread
      have hsetup := held_setup_read h hread'.1 hread'.2
      exact ⟨Held.start hsetup, ReaderStep.rfl, WriterStep.rfl, hreader, WriterStep.rfl⟩
    . cases heq
      exact ⟨held_failed_of_read h left right hreader, hdropped⟩
    . cases heq
      exact ⟨held_failed_of_read h left right hreader, hdropped⟩
  . simp only [Option.map_eq_some_iff, Prod.mk.injEq, Prod.exists] at hstep
    rcases hstep with ⟨_, _, hrelay, rfl, rfl⟩
    rcases copyLeftToRight_eq_some hrelay with ⟨_, _, hcopy, rfl, hhalves⟩
    exact ⟨Held.step_left h hcopy, hhalves⟩
  . simp only [Option.map_eq_some_iff, Prod.mk.injEq, Prod.exists] at hstep
    rcases hstep with ⟨_, _, hrelay, rfl, rfl⟩
    rcases copyRightToLeft_eq_some hrelay with ⟨_, _, hcopy, rfl, hhalves⟩
    exact ⟨Held.step_right h hcopy, hhalves⟩
  . simp only [Option.map_eq_some_iff, Prod.mk.injEq] at hstep
    rcases hstep with ⟨_, hstats, rfl, rfl⟩
    rcases copyStats?_eq_some hstats with ⟨hleft, hright, rfl⟩
    exact ⟨Held.finish h hleft hright, halvesStep_rfl⟩
  . split at hstep
    . cases hstep
    . cases hstep
      exact hfail
  . cases hstep

end ForwardPhase

namespace StreamTask

variable {task task' : StreamTask} {halves halves' : Halves UInt8} {action : ServeAction}

theorem Sound.step (h : task.Sound halves) (hstep : task.step halves action = some (task', halves'))
    : task'.Sound halves' ∧ Halves.Step halves halves' := by
  rcases task with ⟨phase, remote⟩
  have hfail : ∀ {left right : Bool},
      RelayPhase.failed.Held openMarker (statusFrame .ready) (dropHalves halves left right)
        ∧ Halves.Step halves (dropHalves halves left right) :=
    ⟨Held.fail h _ _, halvesStep_dropHalves _ _ _⟩
  unfold StreamTask.step at hstep
  dsimp only at hstep
  split at hstep
  . split at hstep
    . cases hstep
    . cases hstep
      exact ⟨h, halvesStep_rfl⟩
  . split at hstep
    . cases hstep
    . cases hstep
      exact hfail
  . next left right =>
    simp only [Option.map_eq_some_iff, Prod.exists] at hstep
    rcases hstep with ⟨result, rightIn, hread, heq⟩
    have hreader := (readFrame?_eq_some hread).1
    split at heq
    . cases heq
      have hread' := readFrame?_eq_ok (fun hrun => Frames.run_readTcpForwardOpen.mp hrun) hread
      exact ⟨held_setup_read h hread'.1 hread'.2, ReaderStep.rfl, WriterStep.rfl, hreader, WriterStep.rfl⟩
    . cases heq
      exact ⟨held_failed_of_read h left right hreader, ReaderStep.rfl, Pipe.writerStep_drop _ _, hreader,
        Pipe.writerStep_drop _ _⟩
  . cases hstep
    exact ⟨h, halvesStep_rfl⟩
  . cases hstep
    exact ⟨h, halvesStep_rfl⟩
  . cases hstep
    exact ⟨h, halvesStep_rfl⟩
  . cases hstep
    exact ⟨h, halvesStep_rfl⟩
  . simp only [Option.map_eq_some_iff, Prod.mk.injEq] at hstep
    rcases hstep with ⟨rightOut, hsend, rfl, rfl⟩
    exact ⟨Held.start (held_setup_write h hsend), ReaderStep.rfl, WriterStep.rfl, ReaderStep.rfl,
      (Pipe.send?_eq_some hsend).2.2.2.2⟩
  . next left right =>
    simp only [Option.map_eq_some_iff, Prod.mk.injEq] at hstep
    rcases hstep with ⟨rightOut, hsend, rfl, rfl⟩
    rcases Pipe.send?_eq_some hsend with ⟨_, hsent, _, _, hwriter⟩
    refine ⟨(held_failed_of_refusal h hsent).fail left right, ReaderStep.rfl, Pipe.writerStep_drop _ _,
      ReaderStep.rfl, ?_⟩
    exact (hwriter.trans (Pipe.writerStep_finish _)).trans (Pipe.writerStep_drop _ right)
  . simp only [Option.map_eq_some_iff, Prod.mk.injEq, Prod.exists] at hstep
    rcases hstep with ⟨_, _, hrelay, rfl, rfl⟩
    rcases copyLeftToRight_eq_some hrelay with ⟨_, _, hcopy, rfl, hhalves⟩
    exact ⟨Held.step_left h hcopy, hhalves⟩
  . simp only [Option.map_eq_some_iff, Prod.mk.injEq, Prod.exists] at hstep
    rcases hstep with ⟨_, _, hrelay, rfl, rfl⟩
    rcases copyRightToLeft_eq_some hrelay with ⟨_, _, hcopy, rfl, hhalves⟩
    exact ⟨Held.step_right h hcopy, hhalves⟩
  . simp only [Option.map_eq_some_iff, Prod.mk.injEq] at hstep
    rcases hstep with ⟨_, hstats, rfl, rfl⟩
    rcases copyStats?_eq_some hstats with ⟨hleft, hright, rfl⟩
    exact ⟨Held.finish h hleft hright, halvesStep_rfl⟩
  . split at hstep
    . cases hstep
    . cases hstep
      exact hfail
  . cases hstep

end StreamTask

theorem EndAction.run_writer {output input output' input' : Pipe UInt8} {action : EndAction}
    (h : action.step output input = some (output', input')) (received : List UInt8) (finished cut : Bool)
    : ∃ events, (Pipe.endsSystem UInt8).Run
        { sent := output.sent, ended := output.ended, received, finished, cut } events
        { sent := output'.sent, ended := output'.ended, received, finished, cut } := by
  cases action with
  | send chunk =>
    simp only [EndAction.step, Option.map_eq_some_iff, Prod.mk.injEq] at h
    rcases h with ⟨_, hsend, rfl, rfl⟩
    rcases Pipe.send?_eq_some hsend with ⟨hended, hsent, hended', _, _⟩
    refine ⟨[.send chunk], System.Run.single ⟨hended, ?_⟩⟩
    rw [hsent, hended', hended]
  | finish =>
    cases h
    exact ⟨[.finish], System.Run.single rfl⟩
  | receive n =>
    simp only [EndAction.step, Option.map_eq_some_iff, Prod.mk.injEq, Prod.exists] at h
    rcases h with ⟨_, _, _, rfl, _⟩
    exact ⟨[], System.Run.nil _⟩
  | receiveEnd =>
    simp only [EndAction.step, Option.map_eq_some_iff, Prod.mk.injEq] at h
    rcases h with ⟨_, _, rfl, _⟩
    exact ⟨[], System.Run.nil _⟩
  | reset =>
    cases h
    exact ⟨[], System.Run.nil _⟩

theorem EndAction.run_reader {output input output' input' : Pipe UInt8} {action : EndAction}
    (h : action.step output input = some (output', input')) {sent : List UInt8} {ended cut : Bool}
    (hreceived : input'.received <+: sent)
    (hfinished : input'.finished = true → cut = true ∨ ended = true ∧ input'.received = sent)
    : ∃ events, (Pipe.endsSystem UInt8).Run
        { sent, ended, received := input.received, finished := input.finished, cut } events
        { sent, ended, received := input'.received, finished := input'.finished, cut } := by
  cases action with
  | send chunk =>
    simp only [EndAction.step, Option.map_eq_some_iff, Prod.mk.injEq] at h
    rcases h with ⟨_, _, _, rfl⟩
    exact ⟨[], System.Run.nil _⟩
  | finish =>
    cases h
    exact ⟨[], System.Run.nil _⟩
  | receive n =>
    simp only [EndAction.step, Option.map_eq_some_iff, Prod.mk.injEq, Prod.exists] at h
    rcases h with ⟨chunk, _, hreceive, rfl, rfl⟩
    rcases Pipe.receive?_eq_some hreceive with ⟨hchunk, htake, hreceived', hfinished', _, _⟩
    have hopen : input.finished = false := by
      rw [← Bool.not_eq_true]
      intro hend
      rw [Pipe.unread_eq_nil_iff.mpr (input.complete hend).2] at htake
      simp [htake] at hchunk
    rw [hreceived'] at hreceived ⊢
    rw [hfinished']
    exact ⟨[.receive chunk], System.Run.single ⟨hopen, hreceived, rfl⟩⟩
  | receiveEnd =>
    simp only [EndAction.step, Option.map_eq_some_iff, Prod.mk.injEq] at h
    rcases h with ⟨_, hend, rfl, rfl⟩
    rcases Pipe.receiveEnd?_eq_some hend with ⟨_, _, hfinished', hreceived', _, _⟩
    have hcomplete := hfinished hfinished'
    rw [hreceived'] at hcomplete ⊢
    rw [hfinished']
    exact ⟨[.receiveEnd], System.Run.single ⟨hcomplete, rfl⟩⟩
  | reset =>
    cases h
    exact ⟨[], System.Run.nil _⟩

theorem EndAction.writerStep {output input output' input' : Pipe UInt8} {action : EndAction}
    (h : action.step output input = some (output', input')) : WriterStep output output' := by
  cases action with
  | send chunk =>
    simp only [EndAction.step, Option.map_eq_some_iff, Prod.mk.injEq] at h
    rcases h with ⟨_, hsend, rfl, _⟩
    exact (Pipe.send?_eq_some hsend).2.2.2.2
  | finish =>
    cases h
    exact output.writerStep_finish
  | receive n =>
    simp only [EndAction.step, Option.map_eq_some_iff, Prod.mk.injEq, Prod.exists] at h
    rcases h with ⟨_, _, _, rfl, _⟩
    exact WriterStep.rfl
  | receiveEnd =>
    simp only [EndAction.step, Option.map_eq_some_iff, Prod.mk.injEq] at h
    rcases h with ⟨_, _, rfl, _⟩
    exact WriterStep.rfl
  | reset =>
    cases h
    exact output.writerStep_fail

theorem EndAction.readerStep {output input output' input' : Pipe UInt8} {action : EndAction}
    (h : action.step output input = some (output', input')) : ReaderStep input input' := by
  cases action with
  | send chunk =>
    simp only [EndAction.step, Option.map_eq_some_iff, Prod.mk.injEq] at h
    rcases h with ⟨_, _, _, rfl⟩
    exact ReaderStep.rfl
  | finish =>
    cases h
    exact ReaderStep.rfl
  | receive n =>
    simp only [EndAction.step, Option.map_eq_some_iff, Prod.mk.injEq, Prod.exists] at h
    rcases h with ⟨_, _, hreceive, _, rfl⟩
    exact (Pipe.receive?_eq_some hreceive).2.2.2.2.2
  | receiveEnd =>
    simp only [EndAction.step, Option.map_eq_some_iff, Prod.mk.injEq] at h
    rcases h with ⟨_, hend, _, rfl⟩
    exact (Pipe.receiveEnd?_eq_some hend).2.2.2.2.2
  | reset =>
    cases h
    exact input.readerStep_fail

namespace ForwardedStream

variable {stream stream' : ForwardedStream} {action : StreamAction}

structure Sound (stream : ForwardedStream) : Prop where
  client : stream.client.Sound stream.clientHalves
  server : stream.server.Sound stream.serverHalves

def cut (stream : ForwardedStream) : Bool :=
  stream.client.hasFailed || stream.server.phase.hasFailed

def up (stream : ForwardedStream) : Pipe.Ends UInt8 where
  sent := stream.appToClient.sent
  ended := stream.appToClient.ended
  received := stream.serverToService.received
  finished := stream.serverToService.finished
  cut := stream.cut

def down (stream : ForwardedStream) : Pipe.Ends UInt8 where
  sent := stream.serviceToServer.sent
  ended := stream.serviceToServer.ended
  received := stream.clientToApp.received
  finished := stream.clientToApp.finished
  cut := stream.cut

theorem sound_accepted (port : UInt16) : Sound (accepted port) := by
  constructor
  . exact ⟨List.nil_prefix, List.nil_prefix, ⟨rfl, rfl, rfl, rfl⟩, ⟨rfl, rfl, rfl, rfl⟩⟩
  . exact ⟨List.nil_prefix, List.nil_prefix, ⟨rfl, rfl, rfl, rfl⟩, ⟨rfl, rfl, rfl, rfl⟩⟩

theorem Sound.step (h : Sound stream) (hstep : stream.step action = some stream') : Sound stream' := by
  rcases h with ⟨hclient, hserver⟩
  cases action with
  | app action =>
    simp only [ForwardedStream.step, Option.map_eq_some_iff, Prod.exists] at hstep
    rcases hstep with ⟨_, _, haction, rfl⟩
    have hwriter := EndAction.writerStep haction
    have hreader := EndAction.readerStep haction
    refine ⟨Held.of_same hclient ?_, hserver⟩
    exact ⟨hwriter.received, hwriter.finished, rfl, rfl, hreader.sent, hreader.ended, rfl, rfl⟩
  | service action =>
    simp only [ForwardedStream.step] at hstep
    split at hstep
    . cases hstep
    . simp only [Option.map_eq_some_iff, Prod.exists] at hstep
      rcases hstep with ⟨_, _, haction, rfl⟩
      have hwriter := EndAction.writerStep haction
      have hreader := EndAction.readerStep haction
      refine ⟨hclient, Held.of_same hserver ?_⟩
      exact ⟨hwriter.received, hwriter.finished, rfl, rfl, hreader.sent, hreader.ended, rfl, rfl⟩
  | client action =>
    simp only [ForwardedStream.step, Option.map_eq_some_iff, Prod.exists] at hstep
    rcases hstep with ⟨_, _, hphase, rfl⟩
    rcases hclient.step hphase with ⟨hclient', hhalves⟩
    refine ⟨hclient', Held.of_same hserver ?_⟩
    exact ⟨rfl, rfl, hhalves.rightOut.received, hhalves.rightOut.finished, rfl, rfl,
      hhalves.rightIn.sent, hhalves.rightIn.ended⟩
  | server action =>
    simp only [ForwardedStream.step, Option.map_eq_some_iff, Prod.exists] at hstep
    rcases hstep with ⟨_, _, hphase, rfl⟩
    rcases hserver.step hphase with ⟨hserver', hhalves⟩
    refine ⟨Held.of_same hclient ?_, hserver'⟩
    exact ⟨rfl, rfl, hhalves.rightOut.received, hhalves.rightOut.finished, rfl, rfl,
      hhalves.rightIn.sent, hhalves.rightIn.ended⟩
  | breakTunnel =>
    cases hstep
    exact ⟨Held.of_same hclient ⟨rfl, rfl, rfl, rfl, rfl, rfl, rfl, rfl⟩,
      Held.of_same hserver ⟨rfl, rfl, rfl, rfl, rfl, rfl, rfl, rfl⟩⟩

theorem sound_of_reachable (h : streamSystem.Reachable stream) : Sound stream := by
  apply h.invariant
  . rintro _ ⟨port, rfl⟩
    exact sound_accepted port
  . exact fun hs hstep => hs.step hstep

theorem not_failed_of_cut (h : stream.cut = false)
    : stream.client.relayPhase ≠ .failed ∧ stream.server.phase.relayPhase ≠ .failed := by
  simp only [cut, Bool.or_eq_false_iff] at h
  constructor
  . intro hphase
    cases hclient : stream.client <;> simp [hclient, ForwardPhase.relayPhase] at hphase
    simp [hclient, ForwardPhase.hasFailed] at h
  . intro hphase
    cases hserver : stream.server.phase <;> simp [hserver, ServePhase.relayPhase] at hphase
    . simp [hserver, ServePhase.hasFailed] at h
    . simp [hserver, ServePhase.hasFailed] at h

theorem Sound.up_received (h : Sound stream)
    : stream.serverToService.received <+: stream.appToClient.sent :=
  (h.client.carries.1.trans h.server.carries.2).prefix_received

theorem Sound.down_received (h : Sound stream)
    : stream.clientToApp.received <+: stream.serviceToServer.sent :=
  (h.server.carries.1.trans h.client.carries.2).prefix_received

theorem Sound.up_delivers (h : Sound stream) (hcut : stream.cut = false)
    (hended : stream.serverToService.ended = true)
    : Pipe.Delivers [] [] stream.appToClient stream.serverToService := by
  rcases not_failed_of_cut hcut with ⟨hclient, hserver⟩
  have hserver' := h.server.delivers_left hserver hended
  have hended' := (stream.clientToServer.complete hserver'.1).1
  exact (h.client.delivers_right hclient hended').trans hserver'

theorem Sound.down_delivers (h : Sound stream) (hcut : stream.cut = false)
    (hended : stream.clientToApp.ended = true)
    : Pipe.Delivers [] [] stream.serviceToServer stream.clientToApp := by
  rcases not_failed_of_cut hcut with ⟨hclient, hserver⟩
  have hclient' := h.client.delivers_left hclient hended
  have hended' := (stream.serverToClient.complete hclient'.1).1
  exact (h.server.delivers_right hserver hended').trans hclient'

theorem Sound.up_finished (h : Sound stream) (hfinished : stream.serverToService.finished = true)
    : stream.cut = true
        ∨ stream.appToClient.ended = true ∧ stream.serverToService.received = stream.appToClient.sent := by
  cases hcut : stream.cut with
  | true => exact Or.inl rfl
  | false =>
    have hended := (stream.serverToService.complete hfinished).1
    exact Or.inr ((h.up_delivers hcut hended).received_eq hfinished)

theorem Sound.down_finished (h : Sound stream) (hfinished : stream.clientToApp.finished = true)
    : stream.cut = true
        ∨ stream.serviceToServer.ended = true ∧ stream.clientToApp.received = stream.serviceToServer.sent := by
  cases hcut : stream.cut with
  | true => exact Or.inl rfl
  | false =>
    have hended := (stream.clientToApp.complete hfinished).1
    exact Or.inr ((h.down_delivers hcut hended).received_eq hfinished)

theorem client_alive_of_step {port : UInt16} {phase : ForwardPhase} {halves : Halves UInt8}
    {action : ForwardAction} {result : ForwardPhase × Halves UInt8}
    (h : phase.step port halves action = some result) : phase.hasFailed = false := by
  cases phase with
  | failed error => cases action <;> simp [ForwardPhase.step, ForwardPhase.over] at h
  | _ => rfl

theorem server_alive_of_step {task : StreamTask} {halves : Halves UInt8} {action : ServeAction}
    {result : StreamTask × Halves UInt8} (h : task.step halves action = some result)
    : task.phase.hasFailed = false := by
  rcases task with ⟨phase, remote⟩
  cases phase with
  | rejected => cases action <;> simp [StreamTask.step, ServePhase.over] at h
  | failed error => cases action <;> simp [StreamTask.step, ServePhase.over] at h
  | _ => rfl

theorem cut_of_step (hstep : stream.step action = some stream') (hcut : stream.cut = true)
    : stream'.cut = true := by
  cases action with
  | app action =>
    simp only [ForwardedStream.step, Option.map_eq_some_iff, Prod.exists] at hstep
    rcases hstep with ⟨_, _, _, rfl⟩
    exact hcut
  | service action =>
    simp only [ForwardedStream.step] at hstep
    split at hstep
    . cases hstep
    . simp only [Option.map_eq_some_iff, Prod.exists] at hstep
      rcases hstep with ⟨_, _, _, rfl⟩
      exact hcut
  | client action =>
    simp only [ForwardedStream.step, Option.map_eq_some_iff, Prod.exists] at hstep
    rcases hstep with ⟨_, _, hphase, rfl⟩
    simp only [cut, client_alive_of_step hphase, Bool.false_or] at hcut
    simp [cut, hcut]
  | server action =>
    simp only [ForwardedStream.step, Option.map_eq_some_iff, Prod.exists] at hstep
    rcases hstep with ⟨_, _, hphase, rfl⟩
    simp only [cut, server_alive_of_step hphase, Bool.or_false] at hcut
    simp [cut, hcut]
  | breakTunnel =>
    cases hstep
    exact hcut

theorem run_cut {ends ends' : Pipe.Ends UInt8} (hsent : ends'.sent = ends.sent)
    (hended : ends'.ended = ends.ended) (hreceived : ends'.received = ends.received)
    (hfinished : ends'.finished = ends.finished) (hcut : ends.cut = true → ends'.cut = true)
    : ∃ events, (Pipe.endsSystem UInt8).Run ends events ends' := by
  rcases ends with ⟨sent, ended, received, finished, cut⟩
  rcases ends' with ⟨_, _, _, _, cut'⟩
  dsimp only at hsent hended hreceived hfinished hcut
  subst hsent hended hreceived hfinished
  cases cut with
  | false =>
    cases cut' with
    | false => exact ⟨[], System.Run.nil _⟩
    | true => exact ⟨[.cut], System.Run.single rfl⟩
  | true =>
    rw [hcut rfl]
    exact ⟨[], System.Run.nil _⟩

theorem simulates_up (h : Sound stream) (hstep : stream.step action = some stream')
    : ∃ events, (Pipe.endsSystem UInt8).Run stream.up events stream'.up := by
  have hcut := cut_of_step hstep
  have h' := h.step hstep
  cases action with
  | app action =>
    simp only [ForwardedStream.step, Option.map_eq_some_iff, Prod.exists] at hstep
    rcases hstep with ⟨_, _, haction, rfl⟩
    exact EndAction.run_writer haction _ _ _
  | service action =>
    simp only [ForwardedStream.step] at hstep
    split at hstep
    . cases hstep
    . simp only [Option.map_eq_some_iff, Prod.exists] at hstep
      rcases hstep with ⟨_, _, haction, rfl⟩
      exact EndAction.run_reader haction h'.up_received h'.up_finished
  | client action =>
    simp only [ForwardedStream.step, Option.map_eq_some_iff, Prod.exists] at hstep
    rcases hstep with ⟨_, _, hphase, rfl⟩
    have hleft := (h.client.step hphase).2.leftIn
    exact run_cut hleft.sent hleft.ended rfl rfl hcut
  | server action =>
    simp only [ForwardedStream.step, Option.map_eq_some_iff, Prod.exists] at hstep
    rcases hstep with ⟨_, _, hphase, rfl⟩
    have hleft := (h.server.step hphase).2.leftOut
    exact run_cut rfl rfl hleft.received hleft.finished hcut
  | breakTunnel =>
    cases hstep
    exact ⟨[], System.Run.nil _⟩

theorem simulates_down (h : Sound stream) (hstep : stream.step action = some stream')
    : ∃ events, (Pipe.endsSystem UInt8).Run stream.down events stream'.down := by
  have hcut := cut_of_step hstep
  have h' := h.step hstep
  cases action with
  | app action =>
    simp only [ForwardedStream.step, Option.map_eq_some_iff, Prod.exists] at hstep
    rcases hstep with ⟨_, _, haction, rfl⟩
    exact EndAction.run_reader haction h'.down_received h'.down_finished
  | service action =>
    simp only [ForwardedStream.step] at hstep
    split at hstep
    . cases hstep
    . simp only [Option.map_eq_some_iff, Prod.exists] at hstep
      rcases hstep with ⟨_, _, haction, rfl⟩
      exact EndAction.run_writer haction _ _ _
  | client action =>
    simp only [ForwardedStream.step, Option.map_eq_some_iff, Prod.exists] at hstep
    rcases hstep with ⟨_, _, hphase, rfl⟩
    have hleft := (h.client.step hphase).2.leftOut
    exact run_cut rfl rfl hleft.received hleft.finished hcut
  | server action =>
    simp only [ForwardedStream.step, Option.map_eq_some_iff, Prod.exists] at hstep
    rcases hstep with ⟨_, _, hphase, rfl⟩
    have hleft := (h.server.step hphase).2.leftIn
    exact run_cut hleft.sent hleft.ended rfl rfl hcut
  | breakTunnel =>
    cases hstep
    exact ⟨[], System.Run.nil _⟩

theorem Sound.stats (h : Sound stream) {stats : CopyStats} (hclient : stream.client = .finished stats)
    (hcut : stream.cut = false)
    : stats = {
        leftToRight := stream.appToClient.sent.length
        rightToLeft := stream.serviceToServer.sent.length } := by
  have hheld : (RelayPhase.finished stats.leftToRight stats.rightToLeft).Held (statusFrame .ready)
      openMarker stream.clientHalves := by
    simpa [ForwardPhase.Sound, hclient, ForwardPhase.relayPhase] using h.client
  rcases hheld with ⟨⟨hup, _⟩, ⟨hdown, _⟩, hleft, hright⟩
  have hended := (stream.serverToClient.complete hdown.1).1
  have hserver := h.server.delivers_right (not_failed_of_cut hcut).2 hended
  rcases hserver.trans hdown with ⟨hfinished, passed, hreceived, hsent⟩
  rcases stats with ⟨leftToRight, rightToLeft⟩
  dsimp only at hleft hright
  rw [hleft, hright]
  congr 1
  . exact congrArg List.length (stream.appToClient.complete hup.1).2
  . change stream.clientToApp.sent.length = _
    rw [show stream.clientToApp.sent = passed from hsent,
      ← (stream.serviceToServer.complete hfinished).2]
    exact congrArg List.length (show passed = stream.serviceToServer.received from hreceived.symm)

theorem refines (stream : ForwardedStream → Pipe.Ends UInt8)
    (haccepted : ∀ port, stream (accepted port) = Pipe.Ends.empty)
    (hsimulates : ∀ {s s' action}, Sound s → s.step action = some s' →
      ∃ events, (Pipe.endsSystem UInt8).Run (stream s) events (stream s'))
    : streamSystem.Simulation (Pipe.endsSystem UInt8) (fun s ends => ends = stream s) where
  init := by
    rintro _ ⟨port, rfl⟩
    exact ⟨stream (accepted port), haccepted port, rfl⟩
  step := by
    rintro s s' action _ hs rfl hstep
    rcases hsimulates (sound_of_reachable hs) hstep with ⟨events, hrun⟩
    exact ⟨events, stream s', hrun, rfl⟩

end ForwardedStream

theorem tunnel_refines_pipes
    : streamSystem.Simulation (Pipe.endsSystem UInt8) (fun stream ends => ends = stream.up)
        ∧ streamSystem.Simulation (Pipe.endsSystem UInt8) (fun stream ends => ends = stream.down)
        ∧ ∀ stream, streamSystem.Reachable stream →
            stream.up.Sound ∧ stream.down.Sound
              ∧ ∀ stats, stream.client = .finished stats → stream.cut = false →
                  stats = {
                    leftToRight := stream.appToClient.sent.length
                    rightToLeft := stream.serviceToServer.sent.length } := by
  have hup := ForwardedStream.refines ForwardedStream.up (fun _ => rfl) ForwardedStream.simulates_up
  have hdown := ForwardedStream.refines ForwardedStream.down (fun _ => rfl)
    ForwardedStream.simulates_down
  refine ⟨hup, hdown, ?_⟩
  intro stream hreachable
  refine ⟨?_, ?_, ?_⟩
  . rcases hup.invariant Pipe.Ends.sound_of_reachable hreachable with ⟨_, rfl, hsound⟩
    exact hsound
  . rcases hdown.invariant Pipe.Ends.sound_of_reachable hreachable with ⟨_, rfl, hsound⟩
    exact hsound
  . intro stats hclient hcut
    exact (ForwardedStream.sound_of_reachable hreachable).stats hclient hcut

end Attached
