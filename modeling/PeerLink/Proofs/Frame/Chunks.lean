import PeerLink.Proofs.Frame.Grammar

/-!
# Feeding a decoder piece by piece

Bytes come in chunks that know nothing of frames.  A decoder puts each chunk behind
the bytes it has left and takes all frames it can; what it ends with, no frame yet or
a refusal, is its answer to the chunk.  Since decoding goes on where it stopped, how
the bytes were cut cannot be told from what the decoder gives in the end.

A refusal is for good: the refused bytes stay in front, so every later chunk is put
behind them and is answered by the same refusal.

## Main results

* `Frame.Feeding.Agrees.feed` — after each chunk, all that was given is what decoding
  everything at once would have given.
* `Frame.chunking_does_not_matter` — two ways of cutting the same bytes give the same.
-/

namespace PeerLink.Frame

/-- What a decoder has given that is fed chunk by chunk. -/
structure Feeding where
  frames : List Frame := []
  /-- What each chunk ended with: nothing if the decoder waits for more. -/
  answers : List (Option TransportError) := []
  unread : Bytes := []
  deriving DecidableEq

variable {limit : Nat} {d : Feeding} {bytes : Bytes} {e : TransportError}

namespace Feeding

/-- Puts a chunk behind the bytes that are left, and takes all frames. -/
def feed (limit : Nat) (d : Feeding) (chunk : Bytes) : Feeding :=
  let got := decodeAll limit (d.unread ++ chunk)
  ⟨d.frames ++ got.frames, d.answers ++ [got.failure], got.rest⟩

/-- What was given is what decoding `bytes` at once would have given. -/
structure Agrees (limit : Nat) (bytes : Bytes) (d : Feeding) : Prop where
  frames : d.frames = (decodeAll limit bytes).frames
  unread : d.unread = (decodeAll limit bytes).rest
  answer : ∀ a, d.answers.getLast? = some a → a = (decodeAll limit bytes).failure

theorem Agrees.feed (h : d.Agrees limit bytes) (chunk : Bytes) :
    (d.feed limit chunk).Agrees limit (bytes ++ chunk) := by
  have hall := decodeAll_append_rest limit bytes chunk
  rw [← h.unread, ← h.frames] at hall
  refine ⟨?_, ?_, ?_⟩
  · rw [hall]
    rfl
  · rw [hall]
    rfl
  · intro a ha
    rw [hall]
    simpa [Feeding.feed, Decoding.after] using ha.symm

theorem Agrees.foldl (h : d.Agrees limit bytes) (chunks : List Bytes) :
    (chunks.foldl (Feeding.feed limit) d).Agrees limit (bytes ++ chunks.flatten) := by
  induction chunks generalizing d bytes with
  | nil =>
      rw [List.flatten_nil, List.append_nil]
      exact h
  | cons chunk chunks ih =>
      rw [List.foldl_cons, List.flatten_cons, ← List.append_assoc]
      exact ih (h.feed chunk)

theorem length_answers_foldl (limit : Nat) (d : Feeding) (chunks : List Bytes) :
    (chunks.foldl (feed limit) d).answers.length = d.answers.length + chunks.length := by
  induction chunks generalizing d with
  | nil => rfl
  | cons chunk chunks ih =>
      rw [List.foldl_cons, ih, feed, List.length_append, List.length_singleton,
        List.length_cons]
      omega

/-! ## After a refusal -/

/-- A decoder that has refused its bytes takes nothing of a chunk. -/
theorem feed_of_refused (h : decode limit d.unread = .failed e) (chunk : Bytes) :
    d.feed limit chunk = ⟨d.frames, d.answers ++ [some e], d.unread ++ chunk⟩ := by
  simp only [feed, decodeAll_of_failed (decode_failed_append h chunk), List.append_nil]

/-- Whatever was refused is still in front. -/
theorem refused_foldl (h : ∀ e, some e ∈ d.answers → decode limit d.unread = .failed e)
    (chunks : List Bytes) : ∀ e, some e ∈ (chunks.foldl (feed limit) d).answers →
      decode limit (chunks.foldl (feed limit) d).unread = .failed e := by
  induction chunks generalizing d with
  | nil => exact h
  | cons chunk chunks ih =>
      refine ih fun e he => ?_
      rcases List.mem_append.1 he with hbefore | hnow
      · rw [feed_of_refused (h e hbefore)]
        exact decode_failed_append (h e hbefore) chunk
      · exact ((failure_decodeAll limit (d.unread ++ chunk)).1 e).1
          (List.mem_singleton.1 hnow).symm

theorem foldl_feed_of_refused (h : decode limit d.unread = .failed e) (more : List Bytes) :
    more.foldl (feed limit) d =
      ⟨d.frames, d.answers ++ List.replicate more.length (some e),
        d.unread ++ more.flatten⟩ := by
  induction more generalizing d with
  | nil => simp
  | cons chunk more ih =>
      have hstill : decode limit (d.unread ++ chunk) = .failed e := decode_failed_append h chunk
      rw [List.foldl_cons, feed_of_refused h, ih hstill]
      simp [List.replicate_succ]

end Feeding

/-! ## All chunks -/

/-- What a new decoder gives for chunks, one after the other. -/
def feedAll (limit : Nat) (chunks : List Bytes) : Feeding :=
  chunks.foldl (Feeding.feed limit) {}

theorem agrees_feedAll (limit : Nat) (chunks : List Bytes) :
    (feedAll limit chunks).Agrees limit chunks.flatten := by
  have hnil : decodeAll limit [] = ⟨[], none, []⟩ := decodeAll_of_incomplete rfl
  have hstart : ({} : Feeding).Agrees limit [] := by
    refine ⟨by rw [hnil], by rw [hnil], fun a ha => ?_⟩
    cases ha
  exact hstart.foldl chunks

/-- The last answer is what decoding all chunks at once would end with. -/
theorem getLast?_answers_feedAll (limit : Nat) {chunks : List Bytes} (h : chunks ≠ []) :
    (feedAll limit chunks).answers.getLast? =
      some (decodeAll limit chunks.flatten).failure := by
  have hlength : (feedAll limit chunks).answers.length = chunks.length := by
    rw [feedAll, Feeding.length_answers_foldl, List.length_nil, Nat.zero_add]
  cases hlast : (feedAll limit chunks).answers.getLast? with
  | none =>
      rw [List.getLast?_eq_none_iff.1 hlast] at hlength
      exact absurd (List.length_eq_zero_iff.1 hlength.symm) h
  | some a => rw [(agrees_feedAll limit chunks).answer a hlast]

/-- Two ways of cutting the same bytes into chunks, some of them empty perhaps, give
the same frames in the same order, leave the same bytes and end with the same answer.
Once a chunk was answered by a refusal, every later one is answered by the same
refusal and nothing of it is taken. -/
theorem chunking_does_not_matter (limit : Nat) {chunks chunks' : List Bytes}
    (hne : chunks ≠ []) (hne' : chunks' ≠ []) (h : chunks.flatten = chunks'.flatten) :
    (feedAll limit chunks).frames = (feedAll limit chunks').frames ∧
      (feedAll limit chunks).unread = (feedAll limit chunks').unread ∧
      (∃ answer, (feedAll limit chunks).answers.getLast? = some answer ∧
        (feedAll limit chunks').answers.getLast? = some answer) ∧
      ∀ e, some e ∈ (feedAll limit chunks).answers → ∀ more : List Bytes,
        feedAll limit (chunks ++ more) =
          ⟨(feedAll limit chunks).frames,
            (feedAll limit chunks).answers ++ List.replicate more.length (some e),
            (feedAll limit chunks).unread ++ more.flatten⟩ := by
  have hone := agrees_feedAll limit chunks
  have hother := agrees_feedAll limit chunks'
  rw [← h] at hother
  refine ⟨hone.frames.trans hother.frames.symm, hone.unread.trans hother.unread.symm,
    ⟨_, getLast?_answers_feedAll limit hne, h ▸ getLast?_answers_feedAll limit hne'⟩, ?_⟩
  intro e he more
  have hrefused : decode limit (feedAll limit chunks).unread = .failed e :=
    Feeding.refused_foldl (d := {}) nofun chunks e he
  rw [feedAll, List.foldl_append]
  exact Feeding.foldl_feed_of_refused hrefused more

/-- A frame and a length field that leaves no room for a type code, cut inside both
length fields and inside the type code; then more chunks come. -/
theorem cut_in_headers_gives_the_same :
    (feedAll 8 [[0, 0], [], [0, 3, 0], [7, 9, 0, 0], [0, 1]]).frames = [⟨7, [9]⟩] ∧
      (feedAll 8 [[0, 0, 0, 3, 0, 7, 9, 0, 0, 0, 1]]).frames = [⟨7, [9]⟩] ∧
      feedAll 8 ([[0, 0], [], [0, 3, 0], [7, 9, 0, 0], [0, 1]] ++ [[], [5]]) =
        ⟨[⟨7, [9]⟩], [none, none, none, none, some .malformed, some .malformed,
          some .malformed], [0, 0, 0, 1, 5]⟩ := by
  have hcut : feedAll 8 [[0, 0], [], [0, 3, 0], [7, 9, 0, 0], [0, 1]] =
      ⟨[⟨7, [9]⟩], [none, none, none, none, some .malformed], [0, 0, 0, 1]⟩ := by
    decide +kernel
  obtain ⟨hframes, -, -, hlater⟩ := @chunking_does_not_matter 8
    [[0, 0], [], [0, 3, 0], [7, 9, 0, 0], [0, 1]] [[0, 0, 0, 3, 0, 7, 9, 0, 0, 0, 1]]
    (by decide) (by decide) (by decide)
  rw [hcut] at hframes hlater
  refine ⟨by rw [hcut], hframes.symm, ?_⟩
  exact hlater .malformed (by decide) [[], [5]]

end PeerLink.Frame
