import Attached.Sync.Http
import Attached.Worker.Api

/-!
This module contains the correctness of the two readers of bounded bodies: what they return depends on
the declared length and on the concatenation of the chunks, not on how the body is cut into chunks.
-/

namespace Attached

namespace BodyRead

variable {ε : Type}

@[simp]
theorem result_after (output : List UInt8) (read : BodyRead ε)
    : (read.after output).result = read.result := rfl

def Bounded (limit : Nat) (read : BodyRead ε) : Prop :=
  ∀ buffer ∈ read.buffers, buffer.length ≤ limit

theorem Bounded.after {limit : Nat} {output : List UInt8} {read : BodyRead ε}
    (hread : read.Bounded limit) (houtput : output.length ≤ limit)
    : (read.after output).Bounded limit := by
  intro buffer hbuffer
  rcases List.mem_cons.mp hbuffer with rfl | hbuffer
  . exact houtput
  . exact hread buffer hbuffer

theorem bounded_nil {limit : Nat} {result : Except ε (List UInt8)}
    {unread : List (Option (List UInt8))} : (BodyRead.mk result [] unread).Bounded limit := by
  intro buffer hbuffer
  cases hbuffer

end BodyRead

namespace readBoundedBody

theorem bounded_go {limit : Nat} {tooLarge : Bool} {output : List UInt8}
    {stream : List (Option (List UInt8))} (h : output.length ≤ limit)
    : (go limit tooLarge output stream).Bounded limit := by
  induction stream generalizing tooLarge output with
  | nil => apply BodyRead.bounded_nil
  | cons chunk stream ih =>
    cases chunk with
    | none => apply BodyRead.bounded_nil
    | some chunk =>
      unfold go
      split
      . exact (ih h).after h
      . split
        . have hempty : ([] : List UInt8).length ≤ limit := Nat.zero_le limit
          exact (ih hempty).after hempty
        . next hfits =>
          have houtput : (output ++ chunk).length ≤ limit := by
            rw [List.length_append]
            omega
          exact (ih houtput).after houtput

theorem unread_go (limit : Nat) (tooLarge : Bool) (output : List UInt8)
    (chunks : List (List UInt8))
    : (go limit tooLarge output (chunks.map some)).unread = []
        ∧ (go limit tooLarge output (chunks.map some)).buffers.length = chunks.length := by
  induction chunks generalizing tooLarge output with
  | nil => exact ⟨rfl, rfl⟩
  | cons chunk chunks ih =>
    have hafter (tooLarge : Bool) (next output : List UInt8)
        : ((go limit tooLarge next (chunks.map some)).after output).unread = []
            ∧ ((go limit tooLarge next (chunks.map some)).after output).buffers.length
              = chunks.length + 1 :=
      ⟨(ih tooLarge next).1, congrArg (· + 1) (ih tooLarge next).2⟩
    rw [List.map_cons, go, List.length_cons]
    split
    . apply hafter
    . split
      . apply hafter
      . apply hafter

theorem go_tooLarge (limit : Nat) (output : List UInt8) (chunks : List (List UInt8))
    : (go limit true output (chunks.map some)).result = .error .tooLarge := by
  induction chunks with
  | nil => rfl
  | cons chunk chunks ih => exact ih

theorem go_eq {limit : Nat} {output : List UInt8} (chunks : List (List UInt8))
    (h : output.length ≤ limit)
    : (go limit false output (chunks.map some)).result
        =
      if output.length + chunks.flatten.length ≤ limit then
        .ok (output ++ chunks.flatten)
      else
        .error .tooLarge := by
  induction chunks generalizing output with
  | nil => simp [go, h]
  | cons chunk chunks ih =>
    simp only [List.map_cons, go, Bool.false_eq_true, if_false, List.flatten_cons,
      List.length_append]
    split
    . next hlength =>
      rw [BodyRead.result_after, go_tooLarge, if_neg (by omega)]
    . next hlength =>
      rw [BodyRead.result_after, ih (by rw [List.length_append]; omega), List.length_append, Nat.add_assoc,
        List.append_assoc]

end readBoundedBody

def Request.HasChunks (request : Request) (chunks : List (List UInt8)) : Prop :=
  request.body = some (chunks.map some) ∨ request.body = none ∧ chunks = []

def Request.declaresMore (request : Request) (limit : Nat) : Bool :=
  request.contentLength.any fun length => (parseU64 length).any (· > limit)

theorem Request.declaresMore_eq_false_iff {request : Request} {limit : Nat}
    : request.declaresMore limit = false
        ↔
      ∀ length, request.contentLength.bind parseU64 = some length → length ≤ limit := by
  unfold declaresMore
  cases request.contentLength with
  | none => simp
  | some text => cases hlength : parseU64 text <;> simp [hlength]

theorem readBoundedBody_eq {request : Request} {limit : Nat} {chunks : List (List UInt8)}
    (h : request.HasChunks chunks)
    : readBoundedBody request limit
        =
      if request.declaresMore limit = false ∧ chunks.flatten.length ≤ limit then
        .ok chunks.flatten
      else
        .error .tooLarge := by
  unfold readBoundedBody readBoundedBody.trace
  rw [← Request.declaresMore]
  cases request.declaresMore limit with
  | true =>
    rcases h with hbody | ⟨hbody, rfl⟩
    . simp [hbody, readBoundedBody.go_tooLarge]
    . simp [hbody]
  | false =>
    rcases h with hbody | ⟨hbody, rfl⟩
    . have hempty : ([] : List UInt8).length ≤ limit := Nat.zero_le limit
      simpa [hbody] using readBoundedBody.go_eq chunks hempty
    . simp [hbody]

theorem readBoundedBody_eq_ok_iff {request : Request} {limit : Nat} {chunks : List (List UInt8)}
    (h : request.HasChunks chunks) (body : List UInt8)
    : readBoundedBody request limit = .ok body
        ↔
      (∀ length, request.contentLength.bind parseU64 = some length → length ≤ limit)
        ∧ chunks.flatten.length ≤ limit ∧ body = chunks.flatten := by
  rw [readBoundedBody_eq h, ← Request.declaresMore_eq_false_iff, ← and_assoc]
  split
  . next hfits => simp only [hfits, true_and, Except.ok.injEq, eq_comm, and_self]
  . next hfits => simp only [hfits, false_and, reduceCtorEq]

theorem readBoundedBody.bounded_trace (request : Request) (limit : Nat)
    : (trace request limit).Bounded limit := by
  unfold trace
  cases request.body with
  | none => apply BodyRead.bounded_nil
  | some stream => exact bounded_go (Nat.zero_le limit)

theorem readBoundedBody.unread_trace {request : Request} {limit : Nat} {chunks : List (List UInt8)}
    (h : request.HasChunks chunks)
    : (trace request limit).unread = []
        ∧ (trace request limit).buffers.length = chunks.length := by
  unfold trace
  rcases h with hbody | ⟨hbody, rfl⟩
  . rw [hbody]
    apply unread_go
  . rw [hbody]
    exact ⟨rfl, rfl⟩

namespace HttpResponse

namespace boundedResponse

theorem bounded_go {limit : Nat} {output : List UInt8} {chunks : List (Option (List UInt8))}
    : (go limit output chunks).Bounded limit := by
  induction chunks generalizing output with
  | nil => apply BodyRead.bounded_nil
  | cons chunk chunks ih =>
    cases chunk with
    | none => apply BodyRead.bounded_nil
    | some chunk =>
      unfold go
      dsimp only
      split
      . apply BodyRead.bounded_nil
      . split
        . apply BodyRead.bounded_nil
        . next hfits =>
          apply ih.after
          rw [List.length_append]
          omega

theorem bounded_trace (response : HttpResponse) (limit : Nat)
    : (trace response limit).Bounded limit := by
  unfold trace
  split
  . apply BodyRead.bounded_nil
  . apply bounded_go

end boundedResponse

theorem boundedResponse.go_eq_ok_iff {limit : Nat} (hlimit : limit ≤ u64Max) {output : List UInt8}
    (chunks : List (List UInt8)) (h : output.length ≤ limit) (body : List UInt8)
    : (go limit output (chunks.map some)).result = .ok body
        ↔
      output.length + chunks.flatten.length ≤ limit ∧ body = output ++ chunks.flatten := by
  induction chunks generalizing output with
  | nil =>
    simp only [List.map_nil, go, Except.ok.injEq, List.flatten_nil, List.length_nil, Nat.add_zero, h,
      true_and, List.append_nil]
    exact eq_comm
  | cons chunk chunks ih =>
    simp only [List.map_cons, go, List.flatten_cons, List.length_append]
    by_cases hfits : output.length + chunk.length ≤ limit
    . rw [if_neg (by omega), if_neg (by omega), BodyRead.result_after,
        ih (by rw [List.length_append]; exact hfits), List.length_append, Nat.add_assoc,
        List.append_assoc]
    . have hfails : output.length + (chunk.length + chunks.flatten.length) ≤ limit → False := by
        omega
      split
      . simpa using fun h _ => hfails h
      . rw [if_pos (by omega)]
        simpa using fun h _ => hfails h

theorem boundedResponse_eq_ok_iff {response : HttpResponse} {limit : Nat} {chunks : List (List UInt8)}
    (hlimit : limit ≤ u64Max) (hchunks : response.chunks = chunks.map some) (body : List UInt8)
    : response.boundedResponse limit = .ok body
        ↔
      (∀ length, response.contentLength = some length → length ≤ limit)
        ∧ chunks.flatten.length ≤ limit ∧ body = chunks.flatten := by
  have hdeclared : ¬response.contentLength.any (limit < ·) = true
      ↔ ∀ length, response.contentLength = some length → length ≤ limit := by
    cases response.contentLength <;> simp
  have hempty : ([] : List UInt8).length ≤ limit := Nat.zero_le limit
  have hgo := boundedResponse.go_eq_ok_iff hlimit chunks hempty body
  rw [List.length_nil, Nat.zero_add, List.nil_append] at hgo
  unfold boundedResponse boundedResponse.trace
  rw [← hdeclared, hchunks]
  split
  . next hmore => simp [hmore]
  . next hless => simp [hgo, hless]

end HttpResponse

theorem bounded_bodies {limit : Nat} {chunks : List (List UInt8)} {request : Request}
    {response : HttpResponse} (hlimit : limit ≤ u64Max) (hbody : request.HasChunks chunks)
    (hchunks : response.chunks = chunks.map some)
    (hlength : response.contentLength = request.contentLength.bind parseU64)
    : (readBoundedBody request limit = .ok chunks.flatten
          ↔
        (∀ length, request.contentLength.bind parseU64 = some length → length ≤ limit)
          ∧ chunks.flatten.length ≤ limit)
      ∧ (readBoundedBody request limit = .ok chunks.flatten
          ∨ readBoundedBody request limit = .error .tooLarge)
      ∧ (readBoundedBody.trace request limit).unread = []
      ∧ (readBoundedBody.trace request limit).buffers.length = chunks.length
      ∧ (∀ body, response.boundedResponse limit = .ok body ↔ readBoundedBody request limit = .ok body)
      ∧ (∀ (request : Request) (response : HttpResponse),
        (readBoundedBody.trace request limit).result = readBoundedBody request limit
          ∧ (HttpResponse.boundedResponse.trace response limit).result
            = response.boundedResponse limit
          ∧ (readBoundedBody.trace request limit).Bounded limit
          ∧ (HttpResponse.boundedResponse.trace response limit).Bounded limit) := by
  refine ⟨?_, ?_, ?_, ?_, ?_, ?_⟩
  . rw [readBoundedBody_eq_ok_iff hbody]
    simp
  . rw [readBoundedBody_eq hbody]
    split
    . exact .inl rfl
    . exact .inr rfl
  . exact (readBoundedBody.unread_trace hbody).1
  . exact (readBoundedBody.unread_trace hbody).2
  . intro body
    rw [readBoundedBody_eq_ok_iff hbody, HttpResponse.boundedResponse_eq_ok_iff hlimit hchunks,
      hlength]
  . intro request response
    exact ⟨rfl, rfl, readBoundedBody.bounded_trace request limit,
      HttpResponse.boundedResponse.bounded_trace response limit⟩

namespace Fixture

def chunkedRequest : Request where
  method := .put
  route := .fallback
  authorization := []
  contentLength := some [0x35]
  oversized := false
  body := some [some [1, 2, 3], some [], some [4, 5]]
  cancels := true

def chunkedResponse : HttpResponse where
  status := HttpResponse.statusOk
  contentType := none
  etag := none
  contentLength := some 5
  chunks := [some [1, 2, 3], some [], some [4, 5]]

end Fixture

theorem bounded_bodies_exact_limit
    : readBoundedBody Fixture.chunkedRequest 5 = .ok [1, 2, 3, 4, 5]
      ∧ Fixture.chunkedResponse.boundedResponse 5 = .ok [1, 2, 3, 4, 5] := by
  have hchunks : Fixture.chunkedRequest.HasChunks [[1, 2, 3], [], [4, 5]] := .inl rfl
  have hresponse : Fixture.chunkedResponse.chunks = [[1, 2, 3], [], [4, 5]].map some := rfl
  have hlimit : 5 ≤ u64Max := by decide
  have hworker := bounded_bodies hlimit hchunks hresponse rfl
  have hbody : readBoundedBody Fixture.chunkedRequest 5 = .ok [1, 2, 3, 4, 5] := by
    apply hworker.1.mpr
    constructor
    . intro length hlength
      cases hlength
      decide
    . decide
  exact ⟨hbody, (hworker.2.2.2.2.1 _).mpr hbody⟩

end Attached
