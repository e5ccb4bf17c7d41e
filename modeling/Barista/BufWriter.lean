import Barista.Bytes

/-!
# Buffered writers

A buffered writer collects small chunks and hands them to the file in fewer, larger
writes.  `bufferedWrites` computes the writes that a sequence of chunks and a final
flush issue; however the chunks are regrouped, the file receives the same bytes.
-/

namespace Barista

structure BufWriter where
  buffer : Bytes
  written : List Bytes

namespace BufWriter

variable (writer : BufWriter)

def flush : BufWriter :=
  if writer.buffer = [] then writer else ⟨[], writer.written ++ [writer.buffer]⟩

def writeAll (capacity : ℕ) (writer : BufWriter) (chunk : Bytes) : BufWriter :=
  if chunk.length < capacity - writer.buffer.length then
    { writer with buffer := writer.buffer ++ chunk }
  else
    let flushed := if capacity - writer.buffer.length < chunk.length then writer.flush else writer
    if capacity ≤ chunk.length then { flushed with written := flushed.written ++ [chunk] }
    else { flushed with buffer := flushed.buffer ++ chunk }

def contents : Bytes := writer.written.flatten ++ writer.buffer

@[simp]
theorem contents_flush : writer.flush.contents = writer.contents := by
  unfold flush contents
  split <;> simp

theorem buffer_flush : writer.flush.buffer = [] := by
  unfold flush
  split
  · assumption
  · rfl

@[simp]
theorem contents_writeAll (cap : ℕ) (writer : BufWriter) (chunk : Bytes) :
    (writer.writeAll cap chunk).contents = writer.contents ++ chunk := by
  unfold writeAll
  split
  · simp [contents]
  · rename_i large
    dsimp only
    split
    · -- The chunk goes to the file directly, so nothing may be left in the buffer.
      next direct =>
        split
        · have flushed := contents_flush writer
          simp only [contents, buffer_flush, List.append_nil] at flushed ⊢
          simp [flushed]
        · rename_i fits
          rcases Nat.eq_zero_or_pos writer.buffer.length with empty | occupied
          · simp [contents, List.length_eq_zero_iff.mp empty]
          · have none : chunk = [] := List.length_eq_zero_iff.mp (by omega)
            simp [contents, none]
    · split
      · have flushed := contents_flush writer
        simp only [contents] at flushed ⊢
        simp [← flushed]
      · simp [contents]

end BufWriter

def bufferedWrites (capacity : ℕ) (chunks : List Bytes) : List Bytes :=
  (chunks.foldl (BufWriter.writeAll capacity) ⟨[], []⟩).flush.written

theorem flatten_bufferedWrites (cap : ℕ) (chunks : List Bytes) :
    (bufferedWrites cap chunks).flatten = chunks.flatten := by
  have collected : ∀ writer : BufWriter, (chunks.foldl (BufWriter.writeAll cap) writer).contents =
        writer.contents ++ chunks.flatten := by
    induction chunks with
    | nil => simp
    | cons chunk chunks ih => simp [ih]
  have flushed := BufWriter.contents_flush (chunks.foldl (BufWriter.writeAll cap) ⟨[], []⟩)
  rw [collected, BufWriter.contents, BufWriter.buffer_flush, List.append_nil] at flushed
  simpa [bufferedWrites, BufWriter.contents] using flushed

end Barista
