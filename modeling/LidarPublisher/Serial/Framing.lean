import LidarPublisher.Serial.Handler

/-!
# Framing the serial stream

The completion handler works byte by byte and keeps the unfinished line between
two chunks.  Seen from outside, it splits the stream at the end-of-line
character: the chunks leave no trace in what is delivered.
-/

namespace LidarPublisher.Serial.Framing

open LidarPublisher.Lib.Bytes
open LidarPublisher.Lib.Lines
open LidarPublisher.Serial.Handler

/-- The handler calls for chunks received one after the other. -/
def received (s : SerialHandler) (chunks : List Chunk) : SerialHandler :=
  chunks.foldl (fun s chunk => handleRead (.success chunk) s) s

/-- The bytes of a sequence of chunks. -/
def bytesOf (chunks : List Chunk) : List UInt8 := chunks.flatMap Chunk.bytes

/-- The lines delivered while the chunks are received. -/
def linesAfter (s : SerialHandler) (chunks : List Chunk) : List (List UInt8) :=
  (received s chunks).delivered.drop s.delivered.length

/-- How the chunks are cut into lines does not depend on the chunking. -/
theorem frames_received {s : SerialHandler} (h : PortOpen s)
    (chunks : List Chunk) : Frames s (bytesOf chunks) (received s chunks) := by
  induction chunks generalizing s with
  | nil => exact Frames.refl h
  | cons chunk chunks ih =>
      have hfirst := frames_handleRead h (.success chunk)
      rw [show bytesOf (chunk :: chunks) = chunk.bytes ++ bytesOf chunks from
        List.flatMap_cons]
      exact hfirst.trans (ih hfirst.portOpen)

/-- What a handler with no unfinished line delivers, and what it keeps. -/
theorem received_of_empty {s : SerialHandler} (h : PortOpen s)
    (hempty : s.readBufStr = []) (chunks : List Chunk) :
    (received s chunks).delivered = s.delivered ++ linesAfter s chunks ∧
      linesAfter s chunks = segments s.endOfLineChar [] (bytesOf chunks) ∧
      (received s chunks).readBufStr =
        residue s.endOfLineChar [] (bytesOf chunks) := by
  have hframes := frames_received h chunks
  have hlines : linesAfter s chunks =
      segments s.endOfLineChar [] (bytesOf chunks) := by
    unfold linesAfter
    rw [hframes.lines, List.drop_left, hempty]
  refine ⟨?_, hlines, ?_⟩
  · rw [hframes.lines, hlines, hempty]
  · rw [hframes.line, hempty]

/-- **Framing is lossless.**  The lines delivered and the line kept are the
stream split at the end-of-line character, however it was cut into chunks;
joined with that character they give back the stream. -/
theorem received_splitOn (s : SerialHandler) (p : SerialPort)
    (hp : s.port = some p) (hopen : p.isOpen = true) (hempty : s.readBufStr = [])
    (chunks : List Chunk) :
    let eol := s.endOfLineChar
    let lines := linesAfter s chunks
    let rest := (received s chunks).readBufStr
    (received s chunks).delivered = s.delivered ++ lines ∧
      lines ++ [rest] = (bytesOf chunks).splitOn eol ∧
      (∀ line ∈ lines ++ [rest], eol ∉ line) ∧
      [eol].intercalate (lines ++ [rest]) = bytesOf chunks := by
  intro eol lines rest
  rcases received_of_empty ⟨p, hp, hopen⟩ hempty chunks with
    ⟨hdelivered, hlines, hrest⟩
  have hjoined : lines ++ [rest] =
      segments eol [] (bytesOf chunks) ++ [residue eol [] (bytesOf chunks)] := by
    rw [show lines = _ from hlines, show rest = _ from hrest]
  have hsplit : lines ++ [rest] = (bytesOf chunks).splitOn eol := by
    rw [hjoined, segments_append_residue List.not_mem_nil, List.nil_append]
  refine ⟨hdelivered, hsplit, ?_, ?_⟩
  · rw [hjoined]
    exact eol_not_mem List.not_mem_nil (bytesOf chunks)
  · rw [hsplit, List.intercalate_splitOn]

/-- Two chunks that meet inside an end of line: an empty line is delivered too. -/
theorem received_splitOn_started :
    let s := (start .works (SerialHandler.init zeroed)).2
    let chunks : List Chunk :=
      [{ bytes := ascii "ab\n", fits := by decide },
        { bytes := ascii "\nc", fits := by decide }]
    linesAfter s chunks ++ [(received s chunks).readBufStr] =
      [ascii "ab", [], ascii "c"] :=
  (received_splitOn (start .works (SerialHandler.init zeroed)).2
    (SerialPort.fresh true).asyncReadSome rfl rfl rfl _).2.1.trans (by decide)

end LidarPublisher.Serial.Framing
