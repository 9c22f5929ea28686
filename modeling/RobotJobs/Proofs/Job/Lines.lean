import RobotJobs.Proofs.Job.Reference
import RobotJobs.Proofs.Text.Line

/-!
# References line by line

A line refers to the same job with blank characters at its end or without them, a carriage
return among these, and a blank line refers to nothing.  So it does not matter how a line ends
and whether the last one ends at all: a text refers to what its segments between line feeds
refer to (`inText_eq`).  As bytes are read line by line too, whatever stands in one line of a
file has no effect on the references in another one (`inBytes_lines`).
-/

namespace RobotJobs.Reference

variable {marker line blanks xs : List Char}

/-- Blank characters at the end of a line do not matter. -/
theorem inLine?_append_of_blank (hblank : ∀ c ∈ blanks, Text.isBlank c = true) :
  inLine? marker (line ++ blanks) = inLine? marker line
  := by
  rw [inLine?, inLine?, Text.trim_append_of_blank hblank]

theorem inLine?_append_return (marker line : List Char) :
  inLine? marker (line ++ ['\r']) = inLine? marker line
  := by
  apply inLine?_append_of_blank
  rw [List.forall_mem_singleton]
  decide

theorem inLine?_dropReturn (marker line : List Char) :
  inLine? marker (Text.dropReturn line) = inLine? marker line
  := by
  unfold Text.dropReturn
  split
  · next hlast =>
    obtain ⟨start, rfl⟩ := List.getLast?_eq_some_iff.1 hlast
    rw [List.dropLast_concat, inLine?_append_return]
  · rfl

/-- The lines of a text refer to what the segments of the text refer to: they differ in
carriage returns at the end and in an empty last segment. -/
theorem filterMap_linesOfSegments (hmarker : marker ≠ []) (segments : List (List Char)) :
  (Text.linesOfSegments segments).filterMap (inLine? marker)
    = segments.filterMap (inLine? marker)
  := by
  fun_induction Text.linesOfSegments segments with
  | case1 => rfl
  | case2 =>
    have hnone : inLine? marker [] = none := inLine?_of_blank hmarker (fun _ hc => nomatch hc)
    simp [hnone]
  | case3 => rfl
  | case4 segment segment' segments ih =>
    rw [List.filterMap_cons, List.filterMap_cons, inLine?_dropReturn, ih]

theorem inText_eq (hmarker : marker ≠ []) (content : List Char) :
  inText marker content
    = ((Text.segments '\n' content).filterMap (inLine? marker)).map fun cs => ⟨String.ofList cs⟩
  := by
  rw [inText, Text.lines, filterMap_linesOfSegments hmarker]

/-- What stands before a line feed and what stands after it refer to jobs by themselves. -/
theorem inText_append (hmarker : marker ≠ []) (xs ys : List Char) :
  inText marker (xs ++ '\n' :: ys) = inText marker xs ++ inText marker ys
  := by
  rw [inText_eq hmarker, Text.segments_append, List.filterMap_append, List.map_append,
    ← inText_eq hmarker, ← inText_eq hmarker]

theorem inText_append_return (hmarker : marker ≠ []) (hxs : '\n' ∉ xs) :
  inText marker (xs ++ ['\r']) = inText marker xs
  := by
  have hreturn : '\n' ∉ xs ++ ['\r'] := by
    simp [hxs]
  rw [inText_eq hmarker, inText_eq hmarker, Text.segments_of_not_mem hxs,
    Text.segments_of_not_mem hreturn, List.filterMap_cons, List.filterMap_cons,
    inLine?_append_return]

/-- Carriage returns before the line feeds do not matter. -/
theorem inText_putBefore (hmarker : marker ≠ []) (content : List Char) :
  inText marker (Text.putBefore '\r' '\n' content) = inText marker content
  := by
  induction content using Text.segments_induction '\n' with
  | last xs hxs => rw [Text.putBefore_of_not_mem hxs]
  | segment xs ys hxs ih =>
    rw [Text.putBefore_append_cons hxs, List.append_cons, inText_append hmarker,
      inText_append hmarker, inText_append_return hmarker hxs, ih]

variable {marker : String}

/-- The byte of a line feed divides the references in a file, whatever bytes stand around
it. -/
theorem inBytes_append (hmarker : marker ≠ "") (bytes bytes' : List UInt8) :
  inBytes marker (bytes ++ 0x0A :: bytes') = inBytes marker bytes ++ inBytes marker bytes'
  := by
  rw [inBytes, Text.decode_append_lineFeed,
    inText_append (mt String.toList_eq_nil_iff.1 hmarker)]
  rfl

/-- References are found line by line.  Let the marker not be empty, as it is not if it has a
character that is not blank.  Then the references in the bytes before and after a line feed
are those in the bytes before it, followed by those in the bytes after it.  Carriage returns
put before the line feeds of a text or of bytes do not change the references.  So the
references in a file are those of its lines, each of them read by itself: bytes that are no
text, in one line, neither hide nor alter nor add a reference in another one. -/
theorem inBytes_lines (marker : String) (hmarker : marker ≠ "") :
  (∀ bytes bytes', inBytes marker (bytes ++ 0x0A :: bytes')
      = inBytes marker bytes ++ inBytes marker bytes')
    ∧ (∀ content, inText marker.toList (Text.putBefore '\r' '\n' content)
      = inText marker.toList content)
    ∧ (∀ bytes, inBytes marker (Text.putBefore 0x0D 0x0A bytes) = inBytes marker bytes)
    ∧ ∀ bytes, inBytes marker bytes = (Text.segments 0x0A bytes).flatMap (inBytes marker)
  := by
  have hne : marker.toList ≠ [] := mt String.toList_eq_nil_iff.1 hmarker
  refine ⟨?_, ?_, ?_, ?_⟩
  · exact inBytes_append hmarker
  · exact inText_putBefore hne
  · intro bytes
    rw [inBytes, Text.decode_putBefore, inText_putBefore hne]
    rfl
  · intro bytes
    induction bytes using Text.segments_induction (0x0A : UInt8) with
    | last bytes hbytes =>
      rw [Text.segments_of_not_mem hbytes, List.flatMap_cons, List.flatMap_nil, List.append_nil]
    | segment bytes bytes' hbytes ih =>
      rw [inBytes_append hmarker, Text.segments_append_cons _ _ _ hbytes, List.flatMap_cons, ih]

/-- A character that is cut off by a line feed does not reach into the next line. -/
theorem inBytes_lines_withCutCharacter :
  defaultMarker ≠ ""
    ∧ inBytes defaultMarker
        (Text.toBytes "CALL JOB:A" ++ [0xE2, 0x82] ++ 0x0A :: Text.toBytes "CALL JOB:B")
      = [⟨"A\uFFFD"⟩, ⟨"B"⟩]
  := by
  have hmarker : defaultMarker ≠ "" := by decide
  use hmarker
  rw [(inBytes_lines defaultMarker hmarker).1]
  decide

end RobotJobs.Reference
