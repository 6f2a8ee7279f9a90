import PlenoraRuntime.Core.Text
import PlenoraRuntime.Core.Time

/-!
# The captured output of a child

`drain_bounded` reads a pipe of the child to its end, and keeps what it has read up to a
limit; the rest is read and forgotten. Each result of `read` is an input. The capture is
locked for each of them, so a snapshot shows it between two results.

What was kept so far is the first `limit` bytes of what was read so far, and the flag says
whether there were more. A chunk keeps this however it is cut (`Retains.retain`).
-/

namespace PlenoraRuntime.Subprocess

open List

structure CapturedOutput where
  bytes : Bytes
  truncated : Bool
  readFailed : Bool
  deriving DecidableEq, Repr

/-- The output that a `SharedCapture` begins with. -/
def CapturedOutput.empty : CapturedOutput where
  bytes := []
  truncated := false
  readFailed := false

def chunkBytes : ℕ := 8 * 1024

/-- The result of one `read`: the part of the chunk that was filled, nothing at the end of the
stream, or an error. -/
inductive ReadResult
  | ok (chunk : Bytes)
  | error
  deriving DecidableEq, Repr

/-- The arm of `drain_bounded` for a chunk: what is still available of the limit is kept. -/
def CapturedOutput.retain (limit : Usize) (state : CapturedOutput) (chunk : Bytes) :
    CapturedOutput :=
  let available := limit.val - state.bytes.length
  let retained := min available chunk.length
  { state with
    bytes := state.bytes ++ chunk.take retained
    truncated := if retained < chunk.length then true else state.truncated }

/-- `drain_bounded`, as far as the given results take it, and whether it has returned. -/
def drainBounded (limit : Usize) : CapturedOutput → List ReadResult → CapturedOutput × Bool
  | state, [] => (state, false)
  | state, .ok [] :: _ => (state, true)
  | state, .ok (first :: chunk) :: rest =>
    drainBounded limit (state.retain limit (first :: chunk)) rest
  | state, .error :: _ => ({ state with readFailed := true }, true)

/-! ## What is kept -/

/-- The capture shows the first bytes of what was read. -/
structure Retains (limit : Usize) (read : Bytes) (state : CapturedOutput) : Prop where
  bytes : state.bytes = read.take limit
  truncated : state.truncated = decide (limit.val < read.length)
  readFailed : state.readFailed = false

section retains

variable {limit : Usize} {read : Bytes} {state : CapturedOutput}

theorem Retains.empty : Retains limit [] .empty :=
  ⟨take_nil.symm, rfl, rfl⟩

theorem Retains.length_bytes (h : Retains limit read state) :
    state.bytes.length = min limit.val read.length := by
  rw [h.bytes, length_take]

/-- A chunk that fits is kept whole; one that does not is cut where the limit is. -/
theorem Retains.retain (h : Retains limit read state) (chunk : Bytes) :
    Retains limit (read ++ chunk) (state.retain limit chunk) where
  bytes := by
    have havail : limit.val - state.bytes.length = limit.val - read.length := by
      rw [h.length_bytes]
      omega
    simp only [CapturedOutput.retain, havail]
    rw [← take_eq_take_min, h.bytes, take_append]
  truncated := by
    simp only [CapturedOutput.retain, h.truncated, length_append, h.length_bytes]
    split
    case isTrue hcut =>
      symm
      rw [decide_eq_true_eq]
      omega
    case isFalse hfits =>
      rw [decide_eq_decide]
      omega
  readFailed := h.readFailed

/-- Whole chunks are drained one by one. -/
theorem Retains.drain (h : Retains limit read state) (chunks : List Bytes)
    (hchunks : ∀ chunk ∈ chunks, chunk ≠ []) (rest : List ReadResult) :
    ∃ state', Retains limit (read ++ chunks.flatten) state' ∧
      drainBounded limit state (chunks.map .ok ++ rest) = drainBounded limit state' rest := by
  induction chunks generalizing read state with
  | nil => exact ⟨state, by simpa using h, rfl⟩
  | cons chunk chunks ih =>
    obtain ⟨hchunk, hlater⟩ := forall_mem_cons.mp hchunks
    obtain ⟨first, bytes, rfl⟩ := exists_cons_of_ne_nil hchunk
    obtain ⟨state', hretains, hdrain⟩ := ih (h.retain (first :: bytes)) hlater
    refine ⟨state', ?_, hdrain⟩
    rw [flatten_cons, ← append_assoc]
    exact hretains

end retains

/-! ## Snapshots -/

/-- Bytes that were kept are not dropped again. -/
theorem bytes_drainBounded (limit : Usize) (state : CapturedOutput) (results : List ReadResult) :
    state.bytes <+: (drainBounded limit state results).1.bytes := by
  induction results generalizing state with
  | nil => exact prefix_rfl
  | cons result rest ih =>
    match result with
    | .ok [] | .error => exact prefix_rfl
    | .ok (first :: chunk) =>
      have hkept : state.bytes <+: (state.retain limit (first :: chunk)).bytes :=
        prefix_append ..
      exact hkept.trans (ih _)

theorem bytes_drainBounded_append (limit : Usize) (state : CapturedOutput)
    (results rest : List ReadResult) :
    (drainBounded limit state results).1.bytes <+:
      (drainBounded limit state (results ++ rest)).1.bytes := by
  induction results generalizing state with
  | nil => exact bytes_drainBounded limit state rest
  | cons result results ih =>
    match result with
    | .ok [] | .error => exact prefix_rfl
    | .ok (first :: chunk) => exact ih _

/-- A chunk that `read` fills: at least one byte, and no more than there is room for. -/
abbrev Chunk := { bytes : Bytes // 1 ≤ bytes.length ∧ bytes.length ≤ chunkBytes }

/-- However the stream is cut into chunks and however it ends: `drain_bounded` returns with the
first bytes up to the limit, with the mark of truncation exactly if there were more, and with
the mark of a failed read exactly if it ended with an error. What any snapshot shows on the
way is a prefix of what is kept in the end. -/
theorem bounded_capture_exact (limit : Usize) (chunks : List Chunk) (failed : Bool) :
    let results := chunks.map (fun chunk => .ok chunk.val) ++
      [if failed then .error else .ok []]
    let read := (chunks.map Subtype.val).flatten
    let final := drainBounded limit .empty results
    final.2 = true ∧ final.1.bytes = read.take (min limit.val read.length) ∧
      (final.1.truncated = true ↔ limit.val < read.length) ∧
      (final.1.readFailed = true ↔ failed = true) ∧
      ∀ seen later, results = seen ++ later →
        (drainBounded limit .empty seen).1.bytes <+: final.1.bytes := by
  intro results read final
  have hchunks : ∀ chunk ∈ chunks.map Subtype.val, chunk ≠ [] := by
    intro chunk hmem
    obtain ⟨filled, -, rfl⟩ := List.mem_map.mp hmem
    exact List.ne_nil_of_length_pos filled.2.1
  have hempty : Retains limit [] .empty := .empty
  obtain ⟨state, hretains, hdrain⟩ := hempty.drain _ hchunks [if failed then .error else .ok []]
  rw [List.nil_append] at hretains
  -- After the chunks, the last read only tells how it ended.
  have hfinal : final = ({ state with readFailed := failed }, true) := by
    have hresults : final = drainBounded limit state [if failed then .error else .ok []] := by
      rw [← hdrain, List.map_map]
      rfl
    rw [hresults]
    have hgoing := hretains.readFailed
    cases failed with
    | true => rfl
    | false =>
      obtain ⟨bytes, truncated, readFailed⟩ := state
      obtain rfl : readFailed = false := hgoing
      rfl
  refine ⟨by rw [hfinal], ?_, ?_, by rw [hfinal], ?_⟩
  · rw [hfinal, ← List.take_eq_take_min]
    exact hretains.bytes
  · rw [hfinal, hretains.truncated, decide_eq_true_eq]
  · intro seen later hsplit
    have hprefix := bytes_drainBounded_append limit .empty seen later
    rwa [← hsplit] at hprefix

end PlenoraRuntime.Subprocess
