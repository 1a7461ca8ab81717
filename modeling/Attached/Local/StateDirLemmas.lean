import Attached.Local.StateDir

/-!
This module contains what is found in the state directory after a call that failed or that a crash
interrupted. A replacement is atomic. The creation of a file is not, it writes to the file itself.
-/

namespace Attached

namespace Disk

open Effect

variable {P : DiskWorld → Prop} {Q : Unit → DiskWorld → Prop} {E : Stop → DiskWorld → Prop}

@[simp]
theorem run_next (directory : Directory) (ends : List StepEnd)
    : next.run ⟨directory, ends⟩
        =
      match ends with
      | [] => (.error .crashed, ⟨directory, []⟩)
      | stepEnd :: ends => (.ok stepEnd, ⟨directory, ends⟩) := by
  cases ends <;> rfl

theorem run_step (f : Directory → Directory) (directory : Directory) (ends : List StepEnd)
    : (step f).run ⟨directory, ends⟩
        =
      match ends with
      | [] => (.error .crashed, ⟨directory, []⟩)
      | .done :: ends => (.ok (), ⟨f directory, ends⟩)
      | .fails _ :: ends => (.error .error, ⟨directory, ends⟩)
      | .crashes progress :: ends =>
        (.error .crashed, ⟨if progress ≠ 0 then f directory else directory, ends⟩) := by
  rcases ends with _ | ⟨_ | _ | progress, ends⟩
  . rfl
  . rfl
  . rfl
  . unfold step
    rw [Effect.bind_def, run_next]
    by_cases hprogress : progress ≠ 0
    . simp only [if_pos hprogress]
      rfl
    . simp only [if_neg hprogress]
      rfl

theorem run_writeAll (name : String) (bytes : List UInt8) (directory : Directory) (ends : List StepEnd)
    : (writeAll name bytes).run ⟨directory, ends⟩
        =
      match ends with
      | [] => (.error .crashed, ⟨directory, []⟩)
      | .done :: ends => (.ok (), ⟨directory.append name bytes, ends⟩)
      | .fails progress :: ends => (.error .error, ⟨directory.append name (bytes.take progress), ends⟩)
      | .crashes progress :: ends =>
        (.error .crashed, ⟨directory.append name (bytes.take progress), ends⟩) := by
  rcases ends with _ | ⟨_ | _ | progress, ends⟩ <;> rfl

theorem triple_step {f : Directory → Directory}
    (hnone : ∀ directory, P ⟨directory, []⟩ → E .crashed ⟨directory, []⟩)
    (hdone : ∀ directory ends, P ⟨directory, .done :: ends⟩ → Q () ⟨f directory, ends⟩)
    (hfails : ∀ directory progress ends, P ⟨directory, .fails progress :: ends⟩ →
      E .error ⟨directory, ends⟩)
    (hcrashes : ∀ directory progress ends, P ⟨directory, .crashes progress :: ends⟩ →
      E .crashed ⟨if progress ≠ 0 then f directory else directory, ends⟩)
    : Triple P (step f) Q E := by
  rintro ⟨directory, ends⟩ t result hP hrun
  rw [run_step] at hrun
  rcases ends with _ | ⟨_ | progress | progress, ends⟩ <;> cases hrun
  . exact hnone _ hP
  . exact hdone _ _ hP
  . exact hfails _ _ _ hP
  . exact hcrashes _ _ _ hP

theorem triple_writeAll {name : String} {bytes : List UInt8}
    (hnone : ∀ directory, P ⟨directory, []⟩ → E .crashed ⟨directory, []⟩)
    (hdone : ∀ directory ends, P ⟨directory, .done :: ends⟩ →
      Q () ⟨directory.append name bytes, ends⟩)
    (hfails : ∀ directory progress ends, P ⟨directory, .fails progress :: ends⟩ →
      E .error ⟨directory.append name (bytes.take progress), ends⟩)
    (hcrashes : ∀ directory progress ends, P ⟨directory, .crashes progress :: ends⟩ →
      E .crashed ⟨directory.append name (bytes.take progress), ends⟩)
    : Triple P (writeAll name bytes) Q E := by
  rintro ⟨directory, ends⟩ t result hP hrun
  rw [run_writeAll] at hrun
  rcases ends with _ | ⟨_ | progress | progress, ends⟩ <;> cases hrun
  . exact hnone _ hP
  . exact hdone _ _ hP
  . exact hfails _ _ _ hP
  . exact hcrashes _ _ _ hP

theorem triple_openExclusive {name : String} {R : Bool → DiskWorld → Prop}
    (hnone : ∀ directory, P ⟨directory, []⟩ → E .crashed ⟨directory, []⟩)
    (hdone : ∀ directory ends, P ⟨directory, .done :: ends⟩ →
      R (directory.visible name).isNone ⟨directory.createExclusive name, ends⟩)
    (hfails : ∀ directory progress ends, P ⟨directory, .fails progress :: ends⟩ →
      E .error ⟨directory, ends⟩)
    (hcrashes : ∀ directory progress ends, P ⟨directory, .crashes progress :: ends⟩ →
      E .crashed ⟨if progress ≠ 0 then directory.createExclusive name else directory, ends⟩)
    : Triple P (openExclusive name) R E := by
  rintro ⟨directory, ends⟩ t result hP hrun
  unfold openExclusive at hrun
  rw [Effect.bind_def, Effect.run_get] at hrun
  simp only [Effect.bind_def, run_step] at hrun
  rcases ends with _ | ⟨_ | progress | progress, ends⟩ <;> cases hrun
  . exact hnone _ hP
  . exact hdone _ _ hP
  . exact hfails _ _ _ hP
  . exact hcrashes _ _ _ hP

theorem triple_ignore {x : Disk Unit} {F : Stop → DiskWorld → Prop} (hx : Triple P x Q F)
    (herror : ∀ s, F .error s → Q () s) (hcrashed : ∀ s, F .crashed s → E .crashed s)
    : Triple P (ignore x) Q E := by
  intro s t result hP hrun
  unfold ignore at hrun
  rw [Effect.bind_def, Effect.run_attempt] at hrun
  rcases hxrun : x.run s with ⟨first, u⟩
  have hpost := hx s u first hP hxrun
  rw [hxrun] at hrun
  rcases first with (_ | _) | _ <;> cases hrun
  . exact herror _ hpost
  . exact hcrashed _ hpost
  . exact hpost

theorem triple_cleanup {x clean : Disk Unit} {F : DiskWorld → Prop}
    (hx : Triple P x Q (fun e s => match e with
      | .error => F s
      | .crashed => E .crashed s))
    (hclean : Triple F (ignore clean) (fun _ s => E .error s) E)
    : Triple P (cleanup x clean) Q E := by
  intro s t result hP hrun
  unfold cleanup at hrun
  rw [Effect.bind_def, Effect.run_attempt] at hrun
  rcases hxrun : x.run s with ⟨first, u⟩
  have hpost := hx s u first hP hxrun
  rw [hxrun] at hrun
  rcases first with (_ | _) | _
  . dsimp only at hrun hpost
    rw [Effect.bind_def] at hrun
    rcases hcleaned : (ignore clean).run u with ⟨second, v⟩
    have hcleanPost := hclean u v second hpost hcleaned
    rw [hcleaned] at hrun
    rcases second with _ | _ <;> cases hrun
    . exact hcleanPost
    . exact hcleanPost
  . cases hrun
    exact hpost
  . cases hrun
    exact hpost

end Disk

namespace Directory

variable {directory : Directory} {name other : String} {file : Option DiskFile}

@[simp]
theorem visible_setEntry_self : (directory.setEntry name file).visible name = file :=
  Function.update_self ..

theorem visible_setEntry_of_ne (h : name ≠ other)
    : (directory.setEntry other file).visible name = directory.visible name :=
  Function.update_of_ne h ..

@[simp]
theorem durable_setEntry : (directory.setEntry other file).durable = directory.durable := rfl

theorem visible_createExclusive_of_ne (h : name ≠ other)
    : (directory.createExclusive other).visible name = directory.visible name := by
  unfold createExclusive
  split
  . rfl
  . exact visible_setEntry_of_ne h

@[simp]
theorem durable_createExclusive : (directory.createExclusive other).durable = directory.durable := by
  unfold createExclusive
  split <;> rfl

theorem visible_append_of_ne (h : name ≠ other) (bytes : List UInt8)
    : (directory.append other bytes).visible name = directory.visible name := by
  unfold append
  split
  . exact visible_setEntry_of_ne h
  . rfl

@[simp]
theorem durable_append (bytes : List UInt8)
    : (directory.append other bytes).durable = directory.durable := by
  unfold append
  split <;> rfl

theorem visible_append_self {written : DiskFile} (h : directory.visible name = some written)
    (bytes : List UInt8)
    : (directory.append name bytes).visible name = some ⟨written.bytes ++ bytes, false⟩ := by
  unfold append
  rw [h]
  exact visible_setEntry_self

theorem visible_createExclusive_self (h : directory.visible name = none)
    : (directory.createExclusive name).visible name = some ⟨[], false⟩ := by
  unfold createExclusive
  rw [h]
  exact visible_setEntry_self

theorem createExclusive_of_some {written : DiskFile} (h : directory.visible name = some written)
    : directory.createExclusive name = directory := by
  unfold createExclusive
  rw [h]

end Directory

namespace StateDir

open Disk

def Found (result : Except Stop α) (directory : Directory) (name : String)
    (content : Option (List UInt8)) : Prop :=
  match result with
  | .error .crashed => ∃ survives kept, content = directory.recovered survives kept name
  | _ => content = directory.read name

structure Atomic (before : Option (List UInt8)) (bytes : List UInt8) (name : String)
    (result : Except Stop α) (directory : Directory) : Prop where
  complete : ∀ content, Found result directory name content → content = before ∨ content = some bytes
  failed : result = .error .error → directory.read name = before

section

variable (before : Option (List UInt8)) (bytes : List UInt8) (name : String)

def entry (content : Option (List UInt8)) : Option DiskFile :=
  content.map fun bytes => ⟨bytes, true⟩

def Unchanged (directory : Directory) : Prop :=
  directory.visible name = entry before ∧ directory.durable name = entry before

def Replaced (directory : Directory) : Prop :=
  directory.visible name = entry (some bytes)
    ∧ (directory.durable name = entry before ∨ directory.durable name = entry (some bytes))

end

variable {before : Option (List UInt8)} {bytes : List UInt8} {name temporary : String}
  {directory : Directory}

theorem Unchanged.read (h : Unchanged before name directory) : directory.read name = before := by
  unfold Directory.read
  rw [h.1]
  cases before <;> rfl

theorem Unchanged.recovered (h : Unchanged before name directory) (survives : String → Bool)
    (kept : String → Nat) : directory.recovered survives kept name = before := by
  unfold Directory.recovered
  rw [h.1, h.2, ite_self]
  cases before <;> rfl

theorem Replaced.recovered (h : Replaced before bytes name directory) (survives : String → Bool)
    (kept : String → Nat)
    : directory.recovered survives kept name = before
        ∨ directory.recovered survives kept name = some bytes := by
  unfold Directory.recovered
  rcases h with ⟨hvisible, hdurable | hdurable⟩ <;> rw [hvisible, hdurable] <;> split
  . exact .inr rfl
  . left
    cases before <;> rfl
  . exact .inr rfl
  . exact .inr rfl

def Stopped (before : Option (List UInt8)) (bytes : List UInt8) (name : String) (stop : Stop)
    (world : DiskWorld) : Prop :=
  match stop with
  | .error => Unchanged before name world.directory
  | .crashed => Unchanged before name world.directory ∨ Replaced before bytes name world.directory

theorem Unchanged.stopped {world : DiskWorld} (h : Unchanged before name world.directory) (stop : Stop)
    : Stopped before bytes name stop world := by
  cases stop with
  | error => exact h
  | crashed => exact .inl h

theorem Unchanged.mono {changed : Directory} (h : Unchanged before name directory)
    (hvisible : changed.visible name = directory.visible name)
    (hdurable : changed.durable = directory.durable) : Unchanged before name changed := by
  unfold Unchanged
  rw [hvisible, hdurable]
  exact h

theorem validateName_of_valid (h : validName name = true) : validateName name = pure () := by
  unfold validateName
  rw [if_pos h]
  rfl

theorem triple_validateName {P : DiskWorld → Prop} {E : Stop → DiskWorld → Prop}
    (h : ∀ s, P s → E .error s) : Effect.Triple P (validateName name) (fun _ => P) E := by
  unfold validateName
  split
  . exact Effect.Triple.pure fun _ hP => hP
  . exact Effect.Triple.lift_error h

def Aside (before : Option (List UInt8)) (name temporary : String) (file : Option DiskFile)
    (world : DiskWorld) : Prop :=
  Unchanged before name world.directory ∧ world.directory.visible temporary = file

section

variable {file file' : Option DiskFile}

theorem triple_aside {f : Directory → Directory}
    (hvisible : ∀ directory, (f directory).visible name = directory.visible name)
    (hdurable : ∀ directory, (f directory).durable = directory.durable)
    (hfile : ∀ directory, directory.visible temporary = file → (f directory).visible temporary = file')
    : Effect.Triple (Aside before name temporary file) (step f)
        (fun _ => Aside before name temporary file') (Stopped before bytes name) := by
  apply triple_step
  . rintro directory ⟨h, _⟩
    exact h.stopped _
  . rintro directory ends ⟨h, htemporary⟩
    exact ⟨h.mono (hvisible directory) (hdurable directory), hfile directory htemporary⟩
  . rintro directory progress ends ⟨h, _⟩
    exact h
  . rintro directory progress ends ⟨h, _⟩
    apply Unchanged.stopped
    dsimp only
    split
    . exact h.mono (hvisible directory) (hdurable directory)
    . exact h

theorem triple_look
    : Effect.Triple (Aside before name temporary file) look
        (fun _ => Aside before name temporary file) (Stopped before bytes name) :=
  triple_aside (fun _ => rfl) (fun _ => rfl) fun _ h => h

end

theorem triple_writeAside (htemporary : name ≠ temporary)
    : Effect.Triple (Aside before name temporary (some ⟨[], false⟩)) (writeAll temporary bytes)
        (fun _ => Aside before name temporary (some ⟨bytes, false⟩)) (Stopped before bytes name) := by
  have hunchanged (directory : Directory) (h : Unchanged before name directory) (written : List UInt8)
      : Unchanged before name (directory.append temporary written) :=
    h.mono (Directory.visible_append_of_ne htemporary _) (Directory.durable_append _)
  apply triple_writeAll
  . rintro directory ⟨h, _⟩
    exact h.stopped _
  . rintro directory ends ⟨h, hfile⟩
    exact ⟨hunchanged _ h _, Directory.visible_append_self hfile bytes⟩
  . rintro directory progress ends ⟨h, _⟩
    exact (hunchanged _ h _).stopped _
  . rintro directory progress ends ⟨h, _⟩
    exact (hunchanged _ h _).stopped _

theorem triple_syncAside (htemporary : name ≠ temporary)
    : Effect.Triple (Aside before name temporary (some ⟨bytes, false⟩))
        (step (Directory.syncFile temporary))
        (fun _ => Aside before name temporary (entry (some bytes))) (Stopped before bytes name) := by
  apply triple_aside
  . intro directory
    exact Directory.visible_setEntry_of_ne htemporary
  . intro directory
    rfl
  . intro directory hfile
    unfold Directory.syncFile
    rw [Directory.visible_setEntry_self, hfile]
    rfl

theorem triple_rename (htemporary : name ≠ temporary)
    : Effect.Triple (Aside before name temporary (entry (some bytes)))
        (step (Directory.rename temporary name))
        (fun _ s => Replaced before bytes name s.directory) (Stopped before bytes name) := by
  have hreplaced (directory : Directory) (h : Unchanged before name directory)
      (hfile : directory.visible temporary = entry (some bytes))
      : Replaced before bytes name (directory.rename temporary name) := by
    refine ⟨?_, .inl h.2⟩
    unfold Directory.rename
    rw [Directory.visible_setEntry_of_ne htemporary, Directory.visible_setEntry_self]
    exact hfile
  apply triple_step
  . rintro directory ⟨h, _⟩
    exact h.stopped _
  . rintro directory ends ⟨h, hfile⟩
    exact hreplaced directory h hfile
  . rintro directory progress ends ⟨h, _⟩
    exact h
  . rintro directory progress ends ⟨h, hfile⟩
    by_cases hprogress : progress ≠ 0
    . rw [if_pos hprogress]
      exact .inr (hreplaced directory h hfile)
    . rw [if_neg hprogress]
      exact .inl h

theorem triple_preRename (htemporary : name ≠ temporary)
    : Effect.Triple (Aside before name temporary (some ⟨[], false⟩))
        (do
          look
          look
          writeAll temporary bytes
          step (Directory.syncFile temporary)
          look
          step (Directory.rename temporary name))
        (fun _ s => Replaced before bytes name s.directory) (Stopped before bytes name) := by
  apply Effect.Triple.bind triple_look
  intro _
  apply Effect.Triple.bind triple_look
  intro _
  apply Effect.Triple.bind (triple_writeAside htemporary)
  intro _
  apply Effect.Triple.bind (triple_syncAside htemporary)
  intro _
  apply Effect.Triple.bind triple_look
  intro _
  exact triple_rename htemporary

theorem triple_syncDirectory {E : Stop → DiskWorld → Prop}
    (hcrashed : ∀ s, Replaced before bytes name s.directory → E .crashed s)
    : Effect.Triple (fun s => Replaced before bytes name s.directory)
        (ignore (step Directory.syncDirectory))
        (fun _ s => Replaced before bytes name s.directory) E := by
  have hsynced (directory : Directory) (h : Replaced before bytes name directory)
      : Replaced before bytes name directory.syncDirectory :=
    ⟨h.1, .inr h.1⟩
  apply triple_ignore (F := fun _ s => Replaced before bytes name s.directory)
  . apply triple_step
    . exact fun directory h => h
    . exact fun directory ends h => hsynced directory h
    . exact fun directory progress ends h => h
    . intro directory progress ends h
      dsimp only
      split
      . exact hsynced directory h
      . exact h
  . exact fun s h => h
  . exact hcrashed

theorem triple_unchanged {f : Directory → Directory}
    (hf : ∀ directory, Unchanged before name directory → Unchanged before name (f directory))
    : Effect.Triple (fun s => Unchanged before name s.directory) (step f)
        (fun _ s => Unchanged before name s.directory) (Stopped before bytes name) := by
  apply triple_step
  . exact fun directory h => h.stopped _
  . exact fun directory ends h => hf directory h
  . exact fun directory progress ends h => h
  . intro directory progress ends h
    apply Unchanged.stopped
    dsimp only
    split
    . exact hf directory h
    . exact h

theorem triple_unlinkAside (htemporary : name ≠ temporary)
    : Effect.Triple (fun s => Unchanged before name s.directory)
        (ignore (step (Directory.unlink temporary)))
        (fun _ s => Unchanged before name s.directory) (Stopped before bytes name) := by
  have hunlinked (directory : Directory) (h : Unchanged before name directory)
      : Unchanged before name (directory.unlink temporary) :=
    h.mono (Directory.visible_setEntry_of_ne htemporary) rfl
  exact triple_ignore (triple_unchanged hunlinked) (fun s h => h) fun s h => h

theorem temporaryName_ne (name : String) (nonce : Vector UInt8 16) : name ≠ temporaryName name nonce := by
  intro h
  have hlength := congrArg String.length h
  simp only [temporaryName, String.length_append, show ".tmp.".length = 5 from rfl] at hlength
  omega

theorem triple_openAside (htemporary : name ≠ temporary)
    : Effect.Triple (fun s => Unchanged before name s.directory) (openExclusive temporary)
        (fun created s => Unchanged before name s.directory
          ∧ (created = true → Aside before name temporary (some ⟨[], false⟩) s))
        (Stopped before bytes name) := by
  have hcreated (directory : Directory) (h : Unchanged before name directory)
      : Unchanged before name (directory.createExclusive temporary) :=
    h.mono (Directory.visible_createExclusive_of_ne htemporary) Directory.durable_createExclusive
  apply triple_openExclusive
  . exact fun directory h => h.stopped _
  . intro directory ends h
    refine ⟨hcreated directory h, fun hnone => ⟨hcreated directory h, ?_⟩⟩
    exact Directory.visible_createExclusive_self (Option.isNone_iff_eq_none.mp hnone)
  . exact fun directory progress ends h => h
  . intro directory progress ends h
    apply Unchanged.stopped
    dsimp only
    split
    . exact hcreated directory h
    . exact h

theorem triple_atomicReplace (nonce : Vector UInt8 16)
    : Effect.Triple (fun s => Unchanged before name s.directory) (atomicReplace name bytes nonce)
        (fun _ s => Replaced before bytes name s.directory) (Stopped before bytes name) := by
  have htemporary := temporaryName_ne name nonce
  have hlook : Effect.Triple (fun s => Unchanged before name s.directory) look
      (fun _ s => Unchanged before name s.directory) (Stopped before bytes name) :=
    triple_unchanged fun _ h => h
  unfold atomicReplace
  apply Effect.Triple.bind (triple_validateName fun s h => h.stopped _)
  intro _
  apply Effect.Triple.bind hlook
  intro _
  apply Effect.Triple.bind hlook
  intro _
  apply Effect.Triple.bind (triple_openAside htemporary)
  intro created
  cases created with
  | false => exact Effect.Triple.lift_error fun s h => h.1
  | true =>
    apply Effect.Triple.bind (Q := fun _ s => Replaced before bytes name s.directory)
    . apply triple_cleanup (F := fun s => Unchanged before name s.directory)
      . apply Effect.Triple.mono (triple_preRename htemporary)
        . exact fun s h => h.2 rfl
        . exact fun _ s h => h
        . intro stop s h
          cases stop <;> exact h
      . exact triple_unlinkAside htemporary
    . intro _
      exact triple_syncDirectory fun s h => .inr h

theorem Replaced.read (h : Replaced before bytes name directory) : directory.read name = some bytes := by
  unfold Directory.read
  rw [h.1]
  rfl

theorem atomic_atomicReplace (contents : String → Option (List UInt8)) (name : String)
    (bytes : List UInt8) (nonce : Vector UInt8 16) (ends : List StepEnd)
    : Atomic (contents name) bytes name
          ((atomicReplace name bytes nonce).run ⟨.settled contents, ends⟩).1
          ((atomicReplace name bytes nonce).run ⟨.settled contents, ends⟩).2.directory
        ∧ (((atomicReplace name bytes nonce).run ⟨.settled contents, ends⟩).1 = .ok () →
          ((atomicReplace name bytes nonce).run ⟨.settled contents, ends⟩).2.directory.read name
            = some bytes) := by
  have hsettled : Unchanged (contents name) name (Directory.settled contents) := ⟨rfl, rfl⟩
  rcases hrun : (atomicReplace name bytes nonce).run ⟨.settled contents, ends⟩ with ⟨result, after⟩
  have hpost := triple_atomicReplace nonce ⟨.settled contents, ends⟩ after result hsettled hrun
  dsimp only
  rcases result with (_ | _) | _
  . refine ⟨⟨?_, fun _ => hpost.read⟩, nofun⟩
    rintro content rfl
    exact .inl hpost.read
  . refine ⟨⟨?_, nofun⟩, nofun⟩
    rintro content ⟨survives, kept, rfl⟩
    rcases hpost with h | h
    . exact .inl (h.recovered survives kept)
    . exact h.recovered survives kept
  . refine ⟨⟨?_, nofun⟩, fun _ => hpost.read⟩
    rintro content rfl
    exact .inr hpost.read

/-- The removal of a file that could not be completed fails, or the machine stops before it. -/
def removalInterrupted (bytes : List UInt8) (ends : List StepEnd) : Bool :=
  match ends with
  | [] => !bytes.isEmpty
  | .done :: _ => false
  | .fails _ :: _ => true
  | .crashes progress :: _ => !bytes.isEmpty && progress == 0

/--
The machine stops in one of the last steps until the bytes of a new file are on the medium, or one of
them fails and the file stays there. A file without bytes is never incomplete.
-/
def fillInterrupted (bytes : List UInt8) (steps : Nat) (ends : List StepEnd) : Bool :=
  match steps, ends with
  | 0, _ => false
  | _ + 1, [] => !bytes.isEmpty
  | steps + 1, .done :: ends => fillInterrupted bytes steps ends
  | _ + 1, .fails _ :: ends => removalInterrupted bytes ends
  | steps + 1, .crashes progress :: _ => !bytes.isEmpty && (steps != 0 || progress == 0)

/-- The creation of a file is interrupted after the file is there and before its bytes are. -/
def creationInterrupted (bytes : List UInt8) (ends : List StepEnd) : Bool :=
  match ends with
  | .done :: ends => fillInterrupted bytes 4 ends
  | .crashes progress :: _ => !bytes.isEmpty && progress != 0
  | _ => false

def Left (bytes : List UInt8) (name : String) (interrupted : Bool) (stop : Stop)
    (directory : Directory) : Prop :=
  match stop with
  | .error => interrupted = false ↔ directory.read name = none
  | .crashed => interrupted = false ↔ ∀ survives kept,
    directory.recovered survives kept name = none
      ∨ directory.recovered survives kept name = some bytes

section

variable {interrupted : Bool} {steps : Nat} {part : List UInt8}

theorem Unchanged.left (h : Unchanged none name directory) (stop : Stop)
    : Left bytes name false stop directory := by
  cases stop with
  | error => exact iff_of_true rfl h.read
  | crashed => exact iff_of_true rfl fun survives kept => .inl (h.recovered survives kept)

theorem Replaced.left (h : Replaced none bytes name directory)
    : Left bytes name false .crashed directory :=
  iff_of_true rfl h.recovered

def Filling (bytes : List UInt8) (name : String) (part : List UInt8) (directory : Directory) : Prop :=
  directory.visible name = some ⟨part, false⟩ ∧ directory.durable name = none ∧ part <+: bytes

theorem Filling.left (h : Filling bytes name part directory)
    : Left bytes name (!bytes.isEmpty) .crashed directory := by
  rcases h with ⟨hvisible, hdurable, hbegins⟩
  cases bytes with
  | nil =>
    apply iff_of_true rfl
    intro survives kept
    unfold Directory.recovered
    rw [hvisible, hdurable, List.prefix_nil.mp hbegins]
    split
    . right
      simp
    . exact .inl rfl
  | cons byte bytes =>
    apply iff_of_false (by simp)
    intro hall
    have hnothing := hall (fun _ => true) (fun _ => 0)
    unfold Directory.recovered at hnothing
    rw [hvisible] at hnothing
    simp at hnothing

def FillingAt (bytes : List UInt8) (name : String) (interrupted : Bool) (part : List UInt8) (steps : Nat)
    (world : DiskWorld) : Prop :=
  Filling bytes name part world.directory ∧ fillInterrupted bytes steps world.ends = interrupted

def FillStopped (bytes : List UInt8) (name : String) (interrupted : Bool) (stop : Stop)
    (world : DiskWorld) : Prop :=
  match stop with
  | .error => (∃ part, Filling bytes name part world.directory)
    ∧ removalInterrupted bytes world.ends = interrupted
  | .crashed => Left bytes name interrupted .crashed world.directory

theorem triple_lookFilling (hsteps : steps ≠ 0)
    : Effect.Triple (FillingAt bytes name interrupted part (steps + 1)) look
        (fun _ => FillingAt bytes name interrupted part steps) (FillStopped bytes name interrupted) := by
  apply triple_step
  . rintro directory ⟨h, rfl⟩
    exact h.left
  . rintro directory ends ⟨h, hends⟩
    exact ⟨h, hends⟩
  . rintro directory progress ends ⟨h, hends⟩
    exact ⟨⟨part, h⟩, hends⟩
  . rintro directory progress ends ⟨h, rfl⟩
    have hleft := h.left
    simpa [FillStopped, fillInterrupted, bne_iff_ne.mpr hsteps] using hleft

theorem Filling.append (h : Filling bytes name [] directory) (written : List UInt8)
    (hwritten : written <+: bytes) : Filling bytes name written (directory.append name written) := by
  refine ⟨?_, ?_, hwritten⟩
  . exact Directory.visible_append_self h.1 written
  . rw [Directory.durable_append]
    exact h.2.1

theorem triple_writeFilling
    : Effect.Triple (FillingAt bytes name interrupted [] 2) (writeAll name bytes)
        (fun _ => FillingAt bytes name interrupted bytes 1) (FillStopped bytes name interrupted) := by
  apply triple_writeAll
  . rintro directory ⟨h, rfl⟩
    exact h.left
  . rintro directory ends ⟨h, hends⟩
    exact ⟨h.append bytes List.prefix_rfl, hends⟩
  . rintro directory progress ends ⟨h, hends⟩
    exact ⟨⟨_, h.append _ (List.take_prefix _ _)⟩, hends⟩
  . rintro directory progress ends ⟨h, rfl⟩
    have hleft := (h.append _ (List.take_prefix progress _)).left
    simpa [FillStopped, fillInterrupted] using hleft

def Created (bytes : List UInt8) (name : String) (interrupted : Bool) (world : DiskWorld) : Prop :=
  Replaced none bytes name world.directory ∧ interrupted = false

theorem triple_syncFilling
    : Effect.Triple (FillingAt bytes name interrupted bytes 1) (step (Directory.syncFile name))
        (fun _ => Created bytes name interrupted) (FillStopped bytes name interrupted) := by
  have hsynced (directory : Directory) (h : Filling bytes name bytes directory)
      : Replaced none bytes name (directory.syncFile name) := by
    refine ⟨?_, .inl h.2.1⟩
    unfold Directory.syncFile
    rw [Directory.visible_setEntry_self, h.1]
    rfl
  apply triple_step
  . rintro directory ⟨h, rfl⟩
    exact h.left
  . rintro directory ends ⟨h, hends⟩
    exact ⟨hsynced directory h, hends.symm⟩
  . rintro directory progress ends ⟨h, hends⟩
    exact ⟨⟨_, h⟩, hends⟩
  . rintro directory progress ends ⟨h, rfl⟩
    by_cases hprogress : progress = 0
    . have hleft := h.left
      simpa [FillStopped, fillInterrupted, hprogress] using hleft
    . have hleft := (hsynced directory h).left
      simpa [FillStopped, fillInterrupted, beq_eq_false_iff_ne.mpr hprogress, hprogress] using hleft

theorem triple_unlinkFilling
    : Effect.Triple (fun s => (∃ part, Filling bytes name part s.directory)
          ∧ removalInterrupted bytes s.ends = interrupted)
        (ignore (step (Directory.unlink name)))
        (fun _ s => Left bytes name interrupted .error s.directory)
        (fun stop s => Left bytes name interrupted stop s.directory) := by
  have hunlinked (directory : Directory) {part : List UInt8} (h : Filling bytes name part directory)
      : Unchanged none name (directory.unlink name) :=
    ⟨Directory.visible_setEntry_self, h.2.1⟩
  apply triple_ignore (F := fun stop s => Left bytes name interrupted stop s.directory)
  . apply triple_step
    . rintro directory ⟨⟨part, h⟩, rfl⟩
      exact h.left
    . rintro directory ends ⟨⟨part, h⟩, rfl⟩
      exact (hunlinked directory h).left .error
    . rintro directory progress ends ⟨⟨part, h⟩, rfl⟩
      apply iff_of_false (by simp [removalInterrupted])
      unfold Directory.read
      rw [h.1]
      simp
    . rintro directory progress ends ⟨⟨part, h⟩, rfl⟩
      by_cases hprogress : progress = 0
      . have hleft := h.left
        simpa [removalInterrupted, hprogress] using hleft
      . have hleft : Left bytes name false .crashed (directory.unlink name) :=
          (hunlinked directory h).left .crashed
        simpa [removalInterrupted, beq_eq_false_iff_ne.mpr hprogress, hprogress] using hleft
  . exact fun s h => h
  . exact fun s h => h

theorem triple_fill
    : Effect.Triple (FillingAt bytes name interrupted [] 4)
        (cleanup
          (do
            look
            look
            writeAll name bytes
            step (Directory.syncFile name))
          (step (Directory.unlink name)))
        (fun _ => Created bytes name interrupted)
        (fun stop s => Left bytes name interrupted stop s.directory) := by
  apply triple_cleanup (F := fun s => (∃ part, Filling bytes name part s.directory)
    ∧ removalInterrupted bytes s.ends = interrupted)
  . apply Effect.Triple.mono (E := FillStopped bytes name interrupted)
      (Q := fun _ => Created bytes name interrupted) (P := FillingAt bytes name interrupted [] 4)
    . apply Effect.Triple.bind (triple_lookFilling (by decide))
      intro _
      apply Effect.Triple.bind (triple_lookFilling (by decide))
      intro _
      apply Effect.Triple.bind triple_writeFilling
      intro _
      exact triple_syncFilling
    . exact fun s h => h
    . exact fun _ s h => h
    . intro stop s h
      cases stop <;> exact h
  . exact triple_unlinkFilling

theorem triple_createNew (hvalid : validName name = true)
    : Effect.Triple (fun s => Unchanged none name s.directory
          ∧ creationInterrupted bytes s.ends = interrupted)
        (createNoclobber name bytes)
        (fun _ => Created bytes name interrupted)
        (fun stop s => Left bytes name interrupted stop s.directory) := by
  have hfilling (directory : Directory) (h : Unchanged none name directory)
      : Filling bytes name [] (directory.createExclusive name) := by
    refine ⟨Directory.visible_createExclusive_self h.1, ?_, List.nil_prefix⟩
    rw [Directory.durable_createExclusive]
    exact h.2
  unfold createNoclobber
  rw [validateName_of_valid hvalid, pure_bind]
  apply Effect.Triple.bind (Q := fun created s => created = true ∧ FillingAt bytes name interrupted [] 4 s)
  . apply triple_openExclusive
    . rintro directory ⟨h, rfl⟩
      exact h.left .crashed
    . rintro directory ends ⟨h, hends⟩
      refine ⟨?_, hfilling directory h, hends⟩
      rw [h.1]
      rfl
    . rintro directory progress ends ⟨h, rfl⟩
      exact h.left .error
    . rintro directory progress ends ⟨h, rfl⟩
      by_cases hprogress : progress = 0
      . have hleft : Left bytes name false .crashed directory := h.left .crashed
        simpa [creationInterrupted, hprogress] using hleft
      . have hleft := (hfilling directory h).left
        simpa [creationInterrupted, bne_iff_ne.mpr hprogress, hprogress] using hleft
  . rintro (_ | _)
    . intro s t result h
      exact absurd h.1 Bool.false_ne_true
    . apply Effect.Triple.bind (Q := fun _ => Created bytes name interrupted)
      . exact triple_fill.mono (fun s h => h.2) (fun _ _ h => h) fun _ _ h => h
      . intro _
        apply Effect.Triple.intro
        rintro s ⟨hreplaced, hinterrupted⟩
        apply Effect.Triple.bind (Q := fun _ s => Replaced none bytes name s.directory)
        . apply Effect.Triple.mono (triple_syncDirectory fun s h => ?_)
          . rintro _ rfl
            exact hreplaced
          . exact fun _ _ h => h
          . exact fun _ _ h => h
          . rw [hinterrupted]
            exact h.left
        . intro _
          exact Effect.Triple.pure fun s h => ⟨h, hinterrupted⟩

theorem triple_createExisting {content : List UInt8}
    : Effect.Triple (fun s => Unchanged (some content) name s.directory) (createNoclobber name bytes)
        (fun _ s => Unchanged (some content) name s.directory)
        (fun _ s => Unchanged (some content) name s.directory) := by
  have hexisting (directory : Directory) (h : Unchanged (some content) name directory)
      : directory.createExclusive name = directory :=
    Directory.createExclusive_of_some h.1
  have hlook : Effect.Triple (fun s => Unchanged (some content) name s.directory) look
      (fun _ s => Unchanged (some content) name s.directory)
      (fun _ s => Unchanged (some content) name s.directory) := by
    apply triple_step
    . exact fun directory h => h
    . exact fun directory ends h => h
    . exact fun directory progress ends h => h
    . intro directory progress ends h
      rw [id, ite_self]
      exact h
  unfold createNoclobber
  have hvalidated : Effect.Triple (fun s => Unchanged (some content) name s.directory)
      (validateName name) (fun _ s => Unchanged (some content) name s.directory)
      (fun _ s => Unchanged (some content) name s.directory) :=
    triple_validateName fun s h => h
  apply Effect.Triple.bind hvalidated
  intro _
  apply Effect.Triple.bind (Q := fun created s => created = false
    ∧ Unchanged (some content) name s.directory)
  . apply triple_openExclusive
    . exact fun directory h => h
    . intro directory ends h
      refine ⟨?_, ?_⟩
      . rw [h.1]
        rfl
      . dsimp only
        rw [hexisting directory h]
        exact h
    . exact fun directory progress ends h => h
    . intro directory progress ends h
      rw [hexisting directory h, ite_self]
      exact h
  . rintro (_ | _)
    . apply Effect.Triple.bind (hlook.mono (fun s h => h.2) (fun _ _ h => h) fun _ _ h => h)
      intro _
      apply Effect.Triple.bind hlook
      intro _
      exact Effect.Triple.pure fun s h => h
    . intro s t result h
      exact absurd h.1 Bool.false_ne_true.symm

end

structure CreatesAtomically (before : Option (List UInt8)) (bytes : List UInt8) (name : String)
    (result : Except Stop α) (directory : Directory) : Prop
    extends Atomic before bytes name result directory where
  kept : before ≠ none → ∀ content, Found result directory name content → content = before

theorem Unchanged.found {result : Except Stop α} (h : Unchanged before name directory)
    {content : Option (List UInt8)} (hfound : Found result directory name content)
    : content = before := by
  rcases result with (_ | _) | _
  . exact hfound.trans h.read
  . rcases hfound with ⟨survives, kept, rfl⟩
    exact h.recovered survives kept
  . exact hfound.trans h.read

theorem Unchanged.createsAtomically {result : Except Stop α} (h : Unchanged before name directory)
    : CreatesAtomically before bytes name result directory where
  complete := fun _ hfound => .inl (h.found hfound)
  failed := fun _ => h.read
  kept := fun _ _ hfound => h.found hfound

variable (contents : String → Option (List UInt8)) (name : String) (bytes : List UInt8)
  (ends : List StepEnd)

theorem createsAtomically_new (hvalid : validName name = true) (hnone : contents name = none)
    : CreatesAtomically none bytes name
          ((createNoclobber name bytes).run ⟨.settled contents, ends⟩).1
          ((createNoclobber name bytes).run ⟨.settled contents, ends⟩).2.directory
        ↔
      creationInterrupted bytes ends = false := by
  have hsettled : Unchanged none name (Directory.settled contents) := by
    rw [← hnone]
    exact ⟨rfl, rfl⟩
  rcases hrun : (createNoclobber name bytes).run ⟨.settled contents, ends⟩ with ⟨result, after⟩
  have hpost := triple_createNew hvalid ⟨.settled contents, ends⟩ after result ⟨hsettled, rfl⟩ hrun
  dsimp only at hpost ⊢
  rcases result with (_ | _) | _
  . rw [show (creationInterrupted bytes ends = false ↔ after.directory.read name = none) from hpost]
    constructor
    . intro h
      exact h.failed rfl
    . intro h
      refine ⟨⟨?_, fun _ => h⟩, nofun⟩
      rintro content rfl
      exact .inl h
  . rw [show (creationInterrupted bytes ends = false ↔ _) from hpost]
    constructor
    . intro h survives kept
      exact h.complete _ ⟨survives, kept, rfl⟩
    . intro h
      refine ⟨⟨?_, nofun⟩, nofun⟩
      rintro content ⟨survives, kept, rfl⟩
      exact h survives kept
  . rcases hpost with ⟨hreplaced, hinterrupted⟩
    apply iff_of_true _ hinterrupted
    refine ⟨⟨?_, nofun⟩, nofun⟩
    rintro content rfl
    exact .inr hreplaced.read

theorem createsAtomically_iff
    : CreatesAtomically (contents name) bytes name
          ((createNoclobber name bytes).run ⟨.settled contents, ends⟩).1
          ((createNoclobber name bytes).run ⟨.settled contents, ends⟩).2.directory
        ↔
      (validName name = true → contents name = none → creationInterrupted bytes ends = false) := by
  by_cases hvalid : validName name = true
  . cases hcontents : contents name with
    | none =>
      rw [createsAtomically_new contents name bytes ends hvalid hcontents]
      exact ⟨fun h _ _ => h, fun h => h hvalid rfl⟩
    | some content =>
      apply iff_of_true _ nofun
      have hsettled : Unchanged (some content) name (Directory.settled contents) := by
        rw [← hcontents]
        exact ⟨rfl, rfl⟩
      rcases hrun : (createNoclobber name bytes).run ⟨.settled contents, ends⟩ with ⟨result, after⟩
      have hpost := triple_createExisting ⟨.settled contents, ends⟩ after result hsettled hrun
      rcases result with _ | _
      . exact Unchanged.createsAtomically hpost
      . exact Unchanged.createsAtomically hpost
  . apply iff_of_true _ fun h => absurd h hvalid
    have hrun : (createNoclobber name bytes).run ⟨.settled contents, ends⟩
        = (.error .error, ⟨.settled contents, ends⟩) := by
      unfold createNoclobber validateName
      rw [if_neg hvalid]
      rfl
    rw [hrun]
    exact Unchanged.createsAtomically ⟨rfl, rfl⟩

end StateDir

open StateDir in
theorem state_files_atomic (contents : String → Option (List UInt8)) (name : String)
    (bytes : List UInt8) (ends : List StepEnd)
    : (∀ nonce, Atomic (contents name) bytes name
            ((atomicReplace name bytes nonce).run ⟨.settled contents, ends⟩).1
            ((atomicReplace name bytes nonce).run ⟨.settled contents, ends⟩).2.directory
          ∧ (((atomicReplace name bytes nonce).run ⟨.settled contents, ends⟩).1 = .ok () →
            ((atomicReplace name bytes nonce).run ⟨.settled contents, ends⟩).2.directory.read name
              = some bytes))
        ∧ (CreatesAtomically (contents name) bytes name
            ((createNoclobber name bytes).run ⟨.settled contents, ends⟩).1
            ((createNoclobber name bytes).run ⟨.settled contents, ends⟩).2.directory
          ↔ (validName name = true → contents name = none → creationInterrupted bytes ends = false))
        ∧ (contents name = none → creationInterrupted bytes ends = false →
          ∀ stored, Found ((createNoclobber name bytes).run ⟨.settled contents, ends⟩).1
              ((createNoclobber name bytes).run ⟨.settled contents, ends⟩).2.directory name (some stored) →
            ∀ accepts : List UInt8 → Bool, accepts bytes = true → accepts stored = true) := by
  refine ⟨fun nonce => atomic_atomicReplace contents name bytes nonce ends,
    createsAtomically_iff contents name bytes ends, ?_⟩
  intro hnone hcomplete stored hfound accepts hbytes
  have hcreated := (createsAtomically_iff contents name bytes ends).mpr fun _ _ => hcomplete
  rcases hcreated.complete _ hfound with h | h
  . rw [hnone] at h
    cases h
  . cases h
    exact hbytes

namespace LocalEncryption

open Disk StateDir

theorem triple_loadOrCreateKdfSalt {stored : List UInt8} (hlength : stored.length ≠ kdfSaltBytes)
    (create : Bool) (candidate : Vector UInt8 kdfSaltBytes)
    : Effect.Triple (fun s => s.directory.read kdfSaltFile = some stored)
        (loadOrCreateKdfSalt create candidate) (fun _ _ => False) (fun _ _ => True) := by
  have hlook : Effect.Triple (fun s => s.directory.read kdfSaltFile = some stored) look
      (fun _ s => s.directory.read kdfSaltFile = some stored) (fun _ _ => True) := by
    apply triple_step
    . exact fun directory h => trivial
    . exact fun directory ends h => h
    . exact fun directory progress ends h => trivial
    . exact fun directory progress ends h => trivial
  have hread : Effect.Triple (fun s => s.directory.read kdfSaltFile = some stored)
      (StateDir.readSecretOptionalBounded kdfSaltFile kdfSaltBytes)
      (fun content _ => content = some stored) (fun _ _ => True) := by
    unfold StateDir.readSecretOptionalBounded
    rw [validateName_of_valid (by decide +kernel), pure_bind]
    apply Effect.Triple.bind hlook
    intro _
    apply Effect.Triple.bind (Q := fun s _ => s.directory.read kdfSaltFile = some stored)
    . exact Effect.Triple.get fun s h => h
    . intro s
      apply Effect.Triple.intro
      intro t hs
      rw [hs]
      apply Effect.Triple.bind (Q := fun _ _ => True)
      . apply triple_step <;> intros <;> trivial
      . intro _
        split
        . exact Effect.Triple.pure fun _ _ => rfl
        . exact Effect.Triple.lift_error fun _ _ => trivial
  unfold loadOrCreateKdfSalt
  apply Effect.Triple.bind hread
  intro content
  apply Effect.Triple.intro
  rintro t rfl
  have hparse : parseKdfSalt stored = .error .error := by
    unfold parseKdfSalt toFixed
    rw [dif_neg hlength]
    rfl
  dsimp only
  rw [hparse]
  exact Effect.Triple.lift_error fun _ _ => trivial

end LocalEncryption

namespace Fixture

def salt : Vector UInt8 LocalEncryption.kdfSaltBytes :=
  Vector.replicate LocalEncryption.kdfSaltBytes 0x41

def tearingSalt : List StepEnd :=
  [.done, .done, .done, .crashes 5]

def tornSalt : Except Stop Bool × DiskWorld :=
  (StateDir.createNoclobber LocalEncryption.kdfSaltFile salt.toList).run
    ⟨.settled fun _ => none, tearingSalt⟩

end Fixture

/-- A salt that was torn by a crash is there, and every later load rejects it. -/
theorem salt_torn
    : ∃ stored, StateDir.Found Fixture.tornSalt.1 Fixture.tornSalt.2.directory
          LocalEncryption.kdfSaltFile (some stored)
        ∧ stored ≠ Fixture.salt.toList
        ∧ ∀ contents create candidate ends, contents LocalEncryption.kdfSaltFile = some stored →
          ∀ salt, ((LocalEncryption.loadOrCreateKdfSalt create candidate).run
            ⟨.settled contents, ends⟩).1 ≠ .ok salt := by
  refine ⟨[0x41, 0x41, 0x41, 0x41, 0x41], ⟨fun _ => true, fun _ => 5, ?_⟩, by decide +kernel, ?_⟩
  . decide +kernel
  . intro contents create candidate ends hcontents salt hload
    have hread : (Directory.settled contents).read LocalEncryption.kdfSaltFile
        = some [0x41, 0x41, 0x41, 0x41, 0x41] := by
      simp [Directory.read, Directory.settled, hcontents]
    rcases hrun : (LocalEncryption.loadOrCreateKdfSalt create candidate).run
      ⟨.settled contents, ends⟩ with ⟨result, after⟩
    rw [hrun] at hload
    cases hload
    exact LocalEncryption.triple_loadOrCreateKdfSalt (by decide) create candidate _ _ _ hread hrun

end Attached
