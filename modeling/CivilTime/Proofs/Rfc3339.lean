/- Timestamps are read back from their texts, with or without a zone in brackets. -/
import CivilTime.Proofs.Iso8601.Reader
import CivilTime.Proofs.Iso8601.Wording
import CivilTime.Rfc3339

namespace CivilTime

open Text Text.Reader Iso8601

theorem Offset.ends_chars {p : Char → Bool} (hplus : p '+' = false) (hminus : p '-' = false) (o : Offset)
    (rest : List Char) : Ends p (o.chars ++ rest) := by
  simp only [chars, List.append_assoc, List.cons_append]
  refine ends_cons ?_ _
  split
  · exact hminus
  · exact hplus

namespace Rfc3339

variable {wall : LocalDateTime} {o : Offset}

/-- A reading and an offset behind it are put together. -/
theorem readTimestamp_chars {cs rest : List Char} (hdot : Ends (· == '.') cs) (hdigit : Ends Char.isDigit cs)
    (hoffset : readOffset cs = .ok (o.seconds, rest)) :
    readTimestamp (wall.chars ++ cs) = build (OffsetDateTime.of wall o) rest := by
  simp only [LocalDateTime.chars, List.append_assoc, List.cons_append]
  unfold readTimestamp
  rw [bind_of_ok (readDate_chars wall.date _), bind_of_ok (expect_cons _ _),
    bind_of_ok (readTime_chars wall.time hdot hdigit), bind_of_ok hoffset, localOf_fields,
    bind_of_ok (build_ok _ _), o.ofSeconds_seconds, bind_of_ok (build_ok _ _)]

theorem readTimestamp_numeric (wall : LocalDateTime) (o : Offset) {rest : List Char} (hcolon : Ends (· == ':') rest) :
    readTimestamp (wall.chars ++ (o.chars ++ rest)) = build (OffsetDateTime.of wall o) rest :=
  readTimestamp_chars (o.ends_chars rfl rfl rest) (o.ends_chars rfl rfl rest) (readOffset_chars o hcolon)

theorem worded_readTimestamp (cs : List Char) : Worded readTimestamp cs := by
  refine (worded_readDate cs).bind fun date cs hdate => (worded_expect _ cs).bind fun _ cs _ => ?_
  refine (worded_readTime cs).bind fun time cs htime => (worded_readOffset cs).bind fun seconds cs hseconds => ?_
  obtain ⟨x, -, rfl⟩ := readDate_eq_ok.mp hdate
  obtain ⟨y, -, rfl, -⟩ := readTime_eq_ok.mp htime
  obtain ⟨z, -, hrange, rfl, -⟩ := readOffset_eq_ok.mp hseconds
  refine (worded_build (fun _ => localOf_writable x y) cs).bind fun wall cs _ => ?_
  refine (worded_build (fun _ => Offset.ofSeconds_writable hrange.writable_total) cs).bind fun o cs _ => ?_
  exact worded_build (fun _ => OffsetDateTime.of_writable) cs

theorem worded_readZoned (cs : List Char) : Worded readZoned cs := by
  refine (worded_readTimestamp cs).bind fun value cs _ => (worded_expect _ cs).bind fun _ cs _ => ?_
  refine Worded.bind (worded_of_ok rfl) fun id cs _ => ?_
  split
  · exact worded_stop rfl cs
  · exact (worded_expect _ cs).bind fun _ cs _ => (worded_finish cs).bind fun _ cs _ => worded_pure _ cs

end Rfc3339

theorem OffsetDateTime.parse_error_kind {text : String} {e : Error} (h : OffsetDateTime.parse text = .error e) :
    e.kind = .invalidFormat :=
  read_error_kind ((Rfc3339.worded_readTimestamp _).bind fun _ cs _ =>
    (worded_finish cs).bind fun _ cs _ => worded_pure _ cs) h

theorem OffsetDateTime.parse_text (x : OffsetDateTime) : OffsetDateTime.parse x.text = .ok x := by
  have hx : OffsetDateTime.of x.wall x.offset = .ok x := of_eq_ok.mpr ⟨rfl, rfl⟩
  have hread : Rfc3339.readTimestamp x.chars = .ok (x, []) := by
    unfold chars
    by_cases hutc : x.offset.isUtc
    · have hzero : x.offset.seconds = 0 := by simpa [Offset.isUtc] using hutc
      rw [if_pos hutc, Rfc3339.readTimestamp_chars (ends_cons rfl _) (ends_cons rfl _)
        (hzero ▸ readOffset_utc []), hx, build_ok]
    · have hnumeric := Rfc3339.readTimestamp_numeric x.wall x.offset (ends_nil _)
      rw [List.append_nil] at hnumeric
      rw [if_neg hutc, hnumeric, hx, build_ok]
  refine read_of_ok ?_
  rw [bind_of_ok hread, bind_of_ok finish_nil]
  rfl

theorem OffsetDateTime.fails_parse {wall : LocalDateTime} {o : Offset} {f : Fault} (h : of wall o = .error f) :
    Fails (OffsetDateTime.parse (String.ofList (wall.chars ++ o.chars))) .invalidFormat := by
  have hread := Rfc3339.readTimestamp_numeric wall o (ends_nil _)
  rw [List.append_nil, h, build_error] at hread
  refine fails_of_ne_ok (fun _ => OffsetDateTime.parse_error_kind) fun x hx => ?_
  rw [OffsetDateTime.parse, Text.Reader.read, String.toList_ofList, bind_of_error hread] at hx
  cases hx

theorem Instant.parse_text (i : Instant) : Instant.parse i.text = .ok i := by
  have hread : OffsetDateTime.parse i.text = .ok i.atUtc := i.atUtc.parse_text
  rw [Instant.parse, hread]
  exact congrArg Except.ok i.toInstant_atUtc

namespace Rfc3339

/-- The name can stand in brackets. -/
structure IsBracketName (id : String) : Prop where
  ne_empty : id ≠ ""
  isZoneChar : ∀ c ∈ id.toList, isZoneChar c = true

theorem IsBracketName.of_all {id : String} (hne : id ≠ "") (h : id.toList.all Rfc3339.isZoneChar = true) :
    IsBracketName id :=
  ⟨hne, List.all_eq_true.mp h⟩

/-- A reading, an offset in numbers and a zone in brackets. -/
def zonedText (wall : LocalDateTime) (o : Offset) (id : String) : String :=
  String.ofList (wall.chars ++ (o.chars ++ '[' :: (id.toList ++ [']'])))

end Rfc3339

theorem ZonedDateTime.text_eq_zonedText (z : ZonedDateTime) :
    z.text = Rfc3339.zonedText z.wall z.offset z.zoneId := by
  simp only [text, chars, Rfc3339.zonedText, List.append_assoc, List.cons_append]

namespace Rfc3339

variable {wall : LocalDateTime} {o : Offset} {id : String}

theorem readZoned_of_ok {x : OffsetDateTime} (hid : IsBracketName id) (h : OffsetDateTime.of wall o = .ok x) :
    Text.Reader.read .zoned readZoned (zonedText wall o id) = .ok (x, id) := by
  have hname : id.toList ≠ [] := fun hn => hid.ne_empty (by rw [← String.ofList_toList (s := id), hn])
  refine read_of_ok ?_
  unfold readZoned
  rw [bind_of_ok ((readTimestamp_numeric wall o (ends_cons rfl _)).trans (h ▸ build_ok x _)),
    bind_of_ok (expect_cons _ _), bind_of_ok (takeWhile_append hid.isZoneChar (ends_cons rfl _)), if_neg hname,
    bind_of_ok (expect_cons _ _), bind_of_ok finish_nil, String.ofList_toList]
  rfl

/-- A reading and an offset that denote no instant in range are no timestamp. -/
theorem fails_readZoned {f : Fault} (h : OffsetDateTime.of wall o = .error f) :
    Fails (Text.Reader.read .zoned readZoned (zonedText wall o id)) .invalidFormat := by
  have hend : Ends (· == ':') ('[' :: (id.toList ++ [']'])) := ends_cons rfl _
  have hread := (readTimestamp_numeric wall o hend).trans (h ▸ build_error f _)
  exact fails_read_of_error (worded_readZoned _) (bind_of_error hread)

/-- Brackets with nothing between them name no zone. -/
theorem fails_readZoned_of_empty : Fails (Text.Reader.read .zoned readZoned (zonedText wall o "")) .invalidFormat := by
  cases hof : OffsetDateTime.of wall o with
  | error f => exact fails_readZoned hof
  | ok x =>
    refine fails_read_of_error (worded_readZoned _) (s := ⟨.expectedZoneId, [']']⟩) ?_
    rw [readZoned, bind_of_ok ((readTimestamp_numeric wall o (ends_cons rfl _)).trans (hof ▸ build_ok x _)),
      bind_of_ok (expect_cons _ _)]
    rfl

end Rfc3339

end CivilTime
