import Attached.Library.Bytes
import Attached.Library.Effect
import Attached.Library.Reader

/-!
This module contains streams that deliver their bytes in pieces. Whoever reads exact amounts from such
a stream does not notice how it is split.
-/

/--
The bytes that arrive together, there is at least one.
-/
structure Chunk where
  head : UInt8
  tail : List UInt8

def Chunk.bytes (chunk : Chunk) : List UInt8 :=
  chunk.head :: chunk.tail

def bytesOf (chunks : List Chunk) : List UInt8 :=
  chunks.flatMap Chunk.bytes

/--
Whatever reads from a stream. A read returns at most the given number of bytes, and none at the end.
-/
class AsyncRead (m : Type → Type) (ε : outParam Type) [Monad m] where
  read : Nat → m (List UInt8)
  readExact : Nat → ε → m (List UInt8)
  fail : {α : Type} → ε → m α

namespace AsyncRead

variable {m : Type → Type} {ε : Type} [Monad m] [AsyncRead m ε]

def ensure (condition : Bool) (error : ε) : m Unit :=
  if condition then return () else fail error

def readBe (width : Nat) (eof : ε) : m Nat := do
  let bs ← readExact width eof
  return Bytes.ofBeBytes bs

end AsyncRead

namespace Reader

variable {ε : Type}

instance : AsyncRead (Reader ε) ε where
  read n := ⟨fun input => .ok (input.take n, input.drop n)⟩
  readExact := take
  fail := fail

end Reader

abbrev ChunkReader (ε : Type) := Effect (List Chunk) ε

namespace ChunkReader

variable {ε : Type}

def read (n : Nat) : ChunkReader ε (List UInt8) where
  run chunks :=
    match chunks with
    | [] => (.ok [], [])
    | chunk :: chunks =>
      match chunk.bytes.drop n with
      | [] => (.ok (chunk.bytes.take n), chunks)
      | head :: tail => (.ok (chunk.bytes.take n), ⟨head, tail⟩ :: chunks)

def fill (eof : ε) (rounds : Nat) (bs : List UInt8) (missing : Nat) : ChunkReader ε (List UInt8) :=
  match rounds, missing with
  | _, 0 => return bs
  | 0, _ + 1 => Effect.lift (.error eof)
  | rounds + 1, missing + 1 => do
    let got ← read (missing + 1)
    if got.isEmpty then
      Effect.lift (.error eof)
    else
      fill eof rounds (bs ++ got) (missing + 1 - got.length)

instance : AsyncRead (ChunkReader ε) ε where
  read := read
  readExact length eof := fill eof length [] length
  fail error := Effect.lift (.error error)

variable {α β : Type} {eof : ε}

/--
The computation does the same as a reader of all the bytes, however they are split.
-/
def Reads (x : ChunkReader ε α) (r : Reader ε α) : Prop :=
  ∀ chunks, r.run (bytesOf chunks)
      =
    match x.run chunks with
    | (.ok a, rest) => .ok (a, bytesOf rest)
    | (.error e, _) => .error e

def Rejects (x : ChunkReader ε α) (chunks : List Chunk) : Prop :=
  ∃ error rest, x.run chunks = (.error error, rest)

theorem rejects_iff {x : ChunkReader ε α} {chunks : List Chunk}
    : Rejects x chunks ↔ ∀ a rest, x.run chunks ≠ (.ok a, rest) := by
  unfold Rejects
  rcases x.run chunks with ⟨error | a, rest⟩
  . simp
  . simp

theorem run_read (n : Nat) (chunks : List Chunk)
    : ∃ got rest, (read n : ChunkReader ε _).run chunks = (.ok got, rest)
        ∧ bytesOf chunks = got ++ bytesOf rest ∧ got.length ≤ n
        ∧ (got = [] → n = 0 ∨ bytesOf chunks = []) := by
  cases chunks with
  | nil => exact ⟨[], [], rfl, rfl, Nat.zero_le _, fun _ => .inr rfl⟩
  | cons chunk chunks =>
    have hlength : (chunk.bytes.take n).length ≤ n := by
      rw [List.length_take]
      exact Nat.min_le_left ..
    have hempty (h : chunk.bytes.take n = []) : n = 0 ∨ bytesOf (chunk :: chunks) = [] := by
      rw [List.take_eq_nil_iff] at h
      rcases h with h | h
      . exact .inl h
      . cases h
    have hsplit : bytesOf (chunk :: chunks)
        = chunk.bytes.take n ++ (chunk.bytes.drop n ++ bytesOf chunks) := by
      rw [← List.append_assoc, List.take_append_drop]
      rfl
    cases hdrop : chunk.bytes.drop n with
    | nil =>
      refine ⟨chunk.bytes.take n, chunks, ?_, ?_, hlength, hempty⟩
      . unfold read
        dsimp only
        rw [hdrop]
      . rw [hsplit, hdrop]
        rfl
    | cons head tail =>
      refine ⟨chunk.bytes.take n, ⟨head, tail⟩ :: chunks, ?_, ?_, hlength, hempty⟩
      . unfold read
        dsimp only
        rw [hdrop]
      . rw [hsplit, hdrop]
        rfl

theorem run_fill {rounds missing : Nat} (hrounds : missing ≤ rounds) (bs : List UInt8)
    (chunks : List Chunk)
    : match (fill eof rounds bs missing).run chunks with
      | (.ok got, rest) => ∃ taken, got = bs ++ taken ∧ taken.length = missing
        ∧ bytesOf chunks = taken ++ bytesOf rest
      | (.error e, _) => (bytesOf chunks).length < missing ∧ e = eof := by
  induction rounds generalizing missing bs chunks with
  | zero =>
    cases Nat.le_zero.mp hrounds
    exact ⟨[], (List.append_nil bs).symm, rfl, rfl⟩
  | succ rounds ih =>
    cases missing with
    | zero => exact ⟨[], (List.append_nil bs).symm, rfl, rfl⟩
    | succ missing =>
      rcases run_read (ε := ε) (missing + 1) chunks with ⟨got, rest, hread, hbytes, hlength, hempty⟩
      unfold fill
      rw [Effect.run_bind_of_ok hread]
      cases got with
      | nil =>
        rcases hempty rfl with hempty | hempty
        . cases hempty
        . refine ⟨?_, rfl⟩
          rw [hempty]
          exact Nat.succ_pos _
      | cons b got =>
        have hrest := @ih (missing + 1 - (b :: got).length)
          (by rw [List.length_cons]; omega) (bs ++ b :: got) rest
        simp only [List.isEmpty_cons, Bool.false_eq_true, if_false]
        rcases hrun : (fill eof rounds (bs ++ b :: got) (missing + 1 - (b :: got).length)).run rest
          with ⟨result, after⟩
        rw [hrun] at hrest
        cases result with
        | ok all =>
          rcases hrest with ⟨taken, rfl, htaken, hafter⟩
          refine ⟨(b :: got) ++ taken, List.append_assoc .., ?_, ?_⟩
          . rw [List.length_append, htaken]
            omega
          . rw [hbytes, hafter, List.append_assoc]
        | error e =>
          rcases hrest with ⟨hshort, rfl⟩
          refine ⟨?_, rfl⟩
          rw [hbytes, List.length_append]
          omega

namespace Reads

theorem pure (a : α) : Reads (pure a : ChunkReader ε α) (pure a) :=
  fun _ => rfl

theorem fail (error : ε) : Reads (AsyncRead.fail error : ChunkReader ε α) (AsyncRead.fail error) :=
  fun _ => rfl

theorem ite {c : Prop} [Decidable c] {x y : ChunkReader ε α} {r s : Reader ε α} (hx : Reads x r)
    (hy : Reads y s) : Reads (if c then x else y) (if c then r else s) := by
  split
  . exact hx
  . exact hy

theorem bind {x : ChunkReader ε α} {r : Reader ε α} {f : α → ChunkReader ε β} {g : α → Reader ε β}
    (hx : Reads x r) (hf : ∀ a, Reads (f a) (g a)) : Reads (x >>= f) (r >>= g) := by
  intro chunks
  have hfirst := hx chunks
  rw [Effect.bind_def, Reader.bind_def, hfirst]
  rcases x.run chunks with ⟨_ | a, rest⟩
  . rfl
  . exact hf a rest

theorem ensure (condition : Bool) (error : ε)
    : Reads (AsyncRead.ensure condition error : ChunkReader ε Unit) (AsyncRead.ensure condition error) := by
  unfold AsyncRead.ensure
  split
  . exact pure ()
  . exact fail error

theorem readExact (length : Nat) (eof : ε)
    : Reads (AsyncRead.readExact length eof : ChunkReader ε _) (AsyncRead.readExact length eof) := by
  intro chunks
  have hfill := @run_fill ε eof _ _ (Nat.le_refl length) [] chunks
  rw [show (AsyncRead.readExact length eof : ChunkReader ε _).run chunks
      = (fill eof length [] length).run chunks from rfl,
    show (AsyncRead.readExact length eof : Reader ε _).run (bytesOf chunks)
      = (Reader.take length eof).run (bytesOf chunks) from rfl]
  rcases hrun : (fill eof length [] length).run chunks with ⟨result, rest⟩
  rw [hrun] at hfill
  cases result with
  | ok got =>
    rcases hfill with ⟨taken, rfl, hlength, hbytes⟩
    exact Reader.run_take_eq_ok_iff.mpr ⟨hlength, hbytes⟩
  | error e =>
    rcases hfill with ⟨hshort, rfl⟩
    unfold Reader.take
    dsimp only
    rw [if_neg (by omega)]

theorem read_one : Reads (AsyncRead.read 1 : ChunkReader ε _) (AsyncRead.read 1) := by
  intro chunks
  rcases run_read (ε := ε) 1 chunks with ⟨got, rest, hread, hbytes, hlength, hempty⟩
  rw [show (AsyncRead.read 1 : ChunkReader ε _).run chunks = (read 1).run chunks from rfl,
    show (AsyncRead.read 1 : Reader ε _).run (bytesOf chunks)
      = .ok ((bytesOf chunks).take 1, (bytesOf chunks).drop 1) from rfl, hread, hbytes]
  rcases got with _ | ⟨b, _ | ⟨b', got⟩⟩
  . rcases hempty rfl with hempty | hempty
    . cases hempty
    . rw [hempty] at hbytes
      rw [show bytesOf rest = [] from hbytes.symm]
      dsimp only
      rw [show bytesOf rest = [] from hbytes.symm]
      rfl
  . rfl
  . rw [List.length_cons, List.length_cons] at hlength
    omega

theorem readBe (width : Nat) (eof : ε)
    : Reads (AsyncRead.readBe width eof : ChunkReader ε _) (AsyncRead.readBe width eof) :=
  bind (readExact width eof) fun _ => pure _

theorem run_eq_ok_iff {x : ChunkReader ε α} {r : Reader ε α} (h : Reads x r) {chunks : List Chunk}
    {a : α} {bs : List UInt8}
    : (∃ rest, x.run chunks = (.ok a, rest) ∧ bytesOf rest = bs)
        ↔
      r.run (bytesOf chunks) = .ok (a, bs) := by
  rw [h chunks]
  rcases x.run chunks with ⟨_ | b, rest⟩
  . simp
  . simp only [Prod.mk.injEq, Except.ok.injEq]
    constructor
    . rintro ⟨_, ⟨rfl, rfl⟩, rfl⟩
      exact ⟨rfl, rfl⟩
    . rintro ⟨rfl, rfl⟩
      exact ⟨rest, ⟨rfl, rfl⟩, rfl⟩

end Reads

end ChunkReader
