import Mathlib
import QualityGate.Tool.Launch

/-! Streams that are read with a bound on what is kept. The stream is read to its end however it is delivered, its
beginning is kept as far as the bound allows, and it is told whether something was dropped. -/

namespace QualityGate.Launch

/-- A way in which a stream is delivered: what the reads give before its end, which is when a read gives nothing. -/
structure Delivery (stream : List UInt8) where
  chunks : List (List UInt8)
  nonempty : ∀ chunk ∈ chunks, chunk ≠ []
  whole : chunks.flatten = stream

/-- What is kept of the part of a stream that was read. -/
structure Kept.Of (limit : Nat) (read : List UInt8) (k : Kept) : Prop where
  bytes : k.bytes = read.take limit
  truncated : k.truncated = true ↔ limit < read.length

section kept

variable {limit : Nat} {read read' : List UInt8} {k k' : Kept}

theorem Kept.Of.unique (h : k.Of limit read) (h' : k'.Of limit read) : k = k' := by
  obtain ⟨bytes, truncated⟩ := k
  obtain ⟨bytes', truncated'⟩ := k'
  obtain rfl : bytes = bytes' := h.bytes.trans h'.bytes.symm
  obtain rfl : truncated = truncated' := Bool.eq_iff_iff.mpr (h.truncated.trans h'.truncated.symm)
  rfl

theorem Kept.Of.initial (limit : Nat) : Kept.Of limit [] {} where
  bytes := by simp
  truncated := by simp

/-- The room left is what the part already read leaves of the bound, and none where that part is beyond it. -/
theorem Kept.Of.keep (h : k.Of limit read) (chunk : List UInt8) : (keep limit k chunk).Of limit (read ++ chunk) := by
  have hroom : (limit : Int) - k.bytes.length = ((limit - read.length : Nat) : Int) := by
    rw [h.bytes, List.length_take]
    omega
  constructor
  · simp only [Launch.keep, hroom, Int.toNat_natCast]
    rw [h.bytes, List.take_append]
    split
    case isTrue => rfl
    case isFalse hfull => rw [show limit - read.length = 0 by omega, List.take_zero, List.append_nil]
  · simp only [Launch.keep, hroom, Bool.or_eq_true, decide_eq_true_eq, h.truncated, List.length_append]
    omega

/-- A read that gives something is kept, and the end leaves the reads after it alone. -/
theorem Kept.Of.drain (h : k.Of limit read) {chunks : List (List UInt8)} (hne : ∀ chunk ∈ chunks, chunk ≠ [])
    (later : List (List UInt8)) :
    ∃ k', k'.Of limit (read ++ chunks.flatten) ∧ drain limit k chunks = (k', []) ∧
      drain limit k (chunks ++ [] :: later) = (k', later) := by
  induction chunks generalizing k read with
  | nil => exact ⟨k, by simpa using h, rfl, rfl⟩
  | cons chunk chunks ih =>
    obtain ⟨hchunk, hne⟩ := List.forall_mem_cons.mp hne
    have hsome : ¬ chunk.isEmpty = true := by simpa using hchunk
    obtain ⟨k', hk', hend, hlater⟩ := ih (h.keep chunk) hne
    refine ⟨k', ?_, ?_, ?_⟩
    · rwa [List.flatten_cons, ← List.append_assoc]
    · rw [Launch.drain, if_neg hsome, hend]
    · rw [List.cons_append, Launch.drain, if_neg hsome, hlater]

end kept

section delivered

variable {stream : List UInt8}

theorem Delivery.kept (d : Delivery stream) (limit : Nat) (later : List (List UInt8)) :
    (readCapped limit d.chunks).Of limit stream ∧
      drain limit {} (d.chunks ++ [] :: later) = (readCapped limit d.chunks, later) := by
  obtain ⟨k, hk, hend, hlater⟩ := (Kept.Of.initial limit).drain d.nonempty later
  rw [List.nil_append, d.whole] at hk
  rw [readCapped, hend, hlater]
  exact ⟨hk, rfl⟩

/-- The whole stream is read, up to the read that gives nothing and not beyond it. What is kept is its beginning, as long
as the bound allows, and something was dropped exactly where it is longer than that. So it does not matter in which
chunks it comes. -/
theorem readCapped_delivered (stream : List UInt8) (limit : Nat) (d : Delivery stream) :
    (∀ later, drain limit {} (d.chunks ++ [] :: later) = (readCapped limit d.chunks, later)) ∧
      readCapped limit d.chunks = ⟨stream.take limit, decide (limit < stream.length)⟩ ∧
      ∀ d' : Delivery stream, readCapped limit d'.chunks = readCapped limit d.chunks := by
  obtain ⟨hkept, -⟩ := d.kept limit []
  refine ⟨fun later => (d.kept limit later).2, hkept.unique ⟨rfl, decide_eq_true_iff⟩, fun d' => ?_⟩
  obtain ⟨hkept', -⟩ := d'.kept limit []
  exact hkept'.unique hkept

end delivered

/-! The streams of a program. -/

theorem chunksFrom_delivers (fuel : Nat) (b : List UInt8) (hfuel : b.length ≤ fuel * chunkSize) :
    (chunksFrom fuel b).flatten = b ∧ ∀ chunk ∈ chunksFrom fuel b, chunk ≠ [] := by
  induction fuel generalizing b with
  | zero =>
    obtain rfl : b = [] := List.length_eq_zero_iff.mp (by omega)
    exact ⟨rfl, nofun⟩
  | succ fuel ih =>
    rw [chunksFrom]
    split
    case isTrue hempty => simp [List.isEmpty_iff.mp hempty]
    case isFalse hsome =>
      have hne : b ≠ [] := by simpa using hsome
      have hrest : (b.drop chunkSize).length ≤ fuel * chunkSize := by
        rw [List.length_drop, chunkSize] at *
        omega
      obtain ⟨hwhole, hnonempty⟩ := ih _ hrest
      refine ⟨by rw [List.flatten_cons, hwhole, List.take_append_drop], List.forall_mem_cons.mpr ⟨?_, hnonempty⟩⟩
      simpa [chunkSize] using hne

/-- What a program has written, in the chunks in which it is read. -/
def written (b : List UInt8) : Delivery b :=
  have hfuel : b.length ≤ (b.length / chunkSize + 1) * chunkSize := by rw [chunkSize]; omega
  have h := chunksFrom_delivers (b.length / chunkSize + 1) b hfuel
  ⟨chunks b, h.2, h.1⟩

/-- Of each stream the result holds the beginning, and it is marked as truncated exactly where one of them is longer than
the bound. -/
theorem result_eq_ok {l : Launch} {tool : String} {f : Shell.Finished} {r : ToolResult} {limit : Nat}
    (hlimit : l.maxOutputBytes = limit) (h : result l tool f = .ok r) :
    r.stdout = String.ofList (Text.Utf8.decodeReplacing (f.out.take limit)) ∧
      r.stderr = String.ofList (Text.Utf8.decodeReplacing (f.err.take limit)) ∧
      (r.truncated = true ↔ limit < f.out.length ∨ limit < f.err.length) := by
  obtain ⟨hout, -⟩ := (written f.out).kept limit []
  obtain ⟨herr, -⟩ := (written f.err).kept limit []
  have htext {k : Kept} {b : List UInt8} (hk : k.Of limit b) :
      String.ofList (Text.Utf8.decodeReplacing k.bytes) = String.ofList (Text.Utf8.decodeReplacing (b.take limit)) := by
    rw [hk.bytes]
  rw [result, hlimit] at h
  split at h
  case h_2 => cases h
  case h_1 =>
    split at h
    · cases h
    · cases h
      refine ⟨htext hout, htext herr, ?_⟩
      rw [Bool.or_eq_true]
      exact or_congr hout.truncated herr.truncated

end QualityGate.Launch
