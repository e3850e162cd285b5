import RadarHost.Acquisition.Stats
import RadarHost.Acquisition.Config
import RadarHost.Discovery.Config
import RadarHost.Json.Record
import RadarHost.Frame.Layout
import RadarHost.Packet.Command

/-!
# The records of the library

How its errors, identities, configurations and layouts are written as JSON and read back. A span of
time is a record of whole seconds and nanoseconds; more than a second of the latter is carried, as
long as the seconds have room, and it is the one record that allows no other fields.
-/

namespace RadarHost

instance : Recorded RangeError where
  toJson e := .record [("width", .nat e.width), ("offset", .nat e.offset), ("bits", .nat e.bits)]
  ofJson? v := do
    match ← Json.fields? ["width", "offset", "bits"] v with
    | [width, offset, bits] =>
      return ⟨← Json.word? width, ← Json.word? offset, ← Json.word? bits⟩
    | _ => none

instance : Recorded ShapeError where
  toJson e := .record [("len", .nat e.len), ("rows", .nat e.rows), ("cols", .nat e.cols)]
  ofJson? v := do
    match ← Json.fields? ["len", "rows", "cols"] v with
    | [len, rows, cols] => return ⟨← Json.size? len, ← Json.size? rows, ← Json.size? cols⟩
    | _ => none

/-- A pair of sizes as a record. -/
def sizePair? (first second : String) (v : Json) : Option (Nat × Nat) := do
  match ← Json.fields? [first, second] v with
  | [a, b] => return (← Json.size? a, ← Json.size? b)
  | _ => none

instance : Recorded CursorError where
  toJson
    | .outOfBounds requested remaining =>
      .variant "OutOfBounds"
        (.record [("requested", .nat requested), ("remaining", .nat remaining)])
    | .elementSize element unit =>
      .variant "ElementSize" (.record [("element", .nat element), ("unit", .nat unit)])
    | .trailingData remaining => .variant "TrailingData" (.record [("remaining", .nat remaining)])
  ofJson? v := do
    match ← Json.contentVariant? v with
    | ("OutOfBounds", content) =>
      let (requested, remaining) ← sizePair? "requested" "remaining" content
      return .outOfBounds requested remaining
    | ("ElementSize", content) =>
      let (element, unit) ← sizePair? "element" "unit" content
      return .elementSize element unit
    | ("TrailingData", content) =>
      match ← Json.fields? ["remaining"] content with
      | [remaining] => return .trailingData (← Json.size? remaining)
      | _ => none
    | _ => none

instance : Recorded PacketError where
  toJson
    | .invalidStart expected got =>
      .variant "InvalidStart" (.record [("expected", toJson expected), ("got", toJson got)])
    | .invalidCommand command =>
      .variant "InvalidCommand" (.record [("command", toJson command)])
    | .unexpectedCommand expected got =>
      .variant "UnexpectedCommand" (.record [("expected", toJson expected), ("got", toJson got)])
    | .checksumMismatch received computed =>
      .variant "ChecksumMismatch"
        (.record [("received", toJson received), ("computed", toJson computed)])
    | .boardStatus status => .variant "BoardStatus" (.record [("status", toJson status)])
    | .payloadTooLarge length maximum =>
      .variant "PayloadTooLarge" (.record [("length", .nat length), ("maximum", .nat maximum)])
    | .incompletePacket received expected =>
      .variant "IncompletePacket"
        (.record [("received", .nat received), ("expected", .nat expected)])
    | .cursor cause => .variant "Cursor" (toJson cause)
  ofJson? v := do
    match ← Json.contentVariant? v with
    | ("InvalidStart", content) =>
      match ← Json.fields? ["expected", "got"] content with
      | [expected, got] => return .invalidStart (← ofJson? expected) (← ofJson? got)
      | _ => none
    | ("InvalidCommand", content) =>
      match ← Json.fields? ["command"] content with
      | [command] => return .invalidCommand (← ofJson? command)
      | _ => none
    | ("UnexpectedCommand", content) =>
      match ← Json.fields? ["expected", "got"] content with
      | [expected, got] => return .unexpectedCommand (← ofJson? expected) (← ofJson? got)
      | _ => none
    | ("ChecksumMismatch", content) =>
      match ← Json.fields? ["received", "computed"] content with
      | [received, computed] => return .checksumMismatch (← ofJson? received) (← ofJson? computed)
      | _ => none
    | ("BoardStatus", content) =>
      match ← Json.fields? ["status"] content with
      | [status] => return .boardStatus (← ofJson? status)
      | _ => none
    | ("PayloadTooLarge", content) =>
      let (length, maximum) ← sizePair? "length" "maximum" content
      return .payloadTooLarge length maximum
    | ("IncompletePacket", content) =>
      let (received, expected) ← sizePair? "received" "expected" content
      return .incompletePacket received expected
    | ("Cursor", content) => return .cursor (← ofJson? content)
    | _ => none

instance : Recorded Command where
  toJson c := .string c.name
  ofJson? v := do Command.ofName? (← Json.unitVariant? v)

instance : Recorded SampleFormat where
  toJson
    | .u16 => .string "U16"
    | .packed12 => .string "Packed12"
  ofJson? v := do
    match ← Json.unitVariant? v with
    | "U16" => return .u16
    | "Packed12" => return .packed12
    | _ => none

instance : Recorded Firmware where
  toJson f := .array [toJson f.major, toJson f.minor, toJson f.patch]
  ofJson?
    | .array [major, minor, patch] => do
      return ⟨← ofJson? major, ← ofJson? minor, ← ofJson? patch⟩
    | _ => none

instance : Recorded BoardInfo where
  toJson i :=
    .record [("vid", toJson i.vid), ("pid", toJson i.pid),
      ("protocol_version", toJson i.protocolVersion), ("firmware", toJson i.firmware)]
  ofJson? v := do
    match ← Json.fields? ["vid", "pid", "protocol_version", "firmware"] v with
    | [vid, pid, version, firmware] =>
      return ⟨← ofJson? vid, ← ofJson? pid, ← ofJson? version, ← ofJson? firmware⟩
    | _ => none

instance : Recorded BoardDescriptor where
  toJson d := .record [("vid", toJson d.vid), ("pid", toJson d.pid), ("name", .string d.name)]
  ofJson? v := do
    match ← Json.fields? ["vid", "pid", "name"] v with
    | [vid, pid, name] => return ⟨← ofJson? vid, ← ofJson? pid, ← ofJson? name⟩
    | _ => none

/-- A span of time as a record. -/
def durationJson (d : Duration) : Json :=
  .record [("secs", .nat (d / 1000000000)), ("nanos", .nat (d % 1000000000))]

/-- The span of time of a record. -/
def duration? (v : Json) : Option Duration := do
  match ← Json.onlyFields? ["secs", "nanos"] v with
  | [secs, nanos] =>
    let d := Duration.ofSecs (← Json.size? secs) + (← Json.word? nanos)
    if d ≤ Duration.longest then some d else none
  | _ => none

instance : Recorded DiscoveryConfig where
  toJson c :=
    .record [("primary_baud_rate", toJson c.primaryBaudRate),
      ("fallback_baud_rate", toJson c.fallbackBaudRate),
      ("probe_timeout", durationJson c.probeTimeout), ("known_boards", toJson c.knownBoards)]
  ofJson? v := do
    match ← Json.fields?
        ["primary_baud_rate", "fallback_baud_rate", "probe_timeout", "known_boards"] v with
    | [primary, fallback, timeout, boards] =>
      return ⟨← ofJson? primary, ← ofJson? fallback, ← duration? timeout, ← ofJson? boards⟩
    | _ => none

instance : Recorded AcquisitionConfig where
  toJson c :=
    .record [("queue_capacity", .nat c.queueCapacity),
      ("read_timeout", durationJson c.readTimeout), ("max_frame_payload", .nat c.maxFramePayload)]
  ofJson? v := do
    match ← Json.fields? ["queue_capacity", "read_timeout", "max_frame_payload"] v with
    | [capacity, timeout, payload] =>
      return ⟨← Json.size? capacity, ← duration? timeout, ← Json.size? payload⟩
    | _ => none

instance : Recorded AcquisitionStats where
  toJson s :=
    .record [("frames_received", .nat s.framesReceived), ("frames_rejected", .nat s.framesRejected),
      ("frames_corrupt", .nat s.framesCorrupt), ("frames_evicted", .nat s.framesEvicted)]
  ofJson? v := do
    match ← Json.fields?
        ["frames_received", "frames_rejected", "frames_corrupt", "frames_evicted"] v with
    | [received, rejected, corrupt, evicted] =>
      return ⟨← Json.size? received, ← Json.size? rejected, ← Json.size? corrupt,
        ← Json.size? evicted⟩
    | _ => none

instance : Recorded FrameLayout where
  toJson l :=
    .record [("rx_mask", toJson l.rxMask), ("num_chirps", .nat l.numChirps),
      ("num_samples_per_chirp", .nat l.numSamplesPerChirp), ("sample_bits", .nat l.sampleBits),
      ("sample_format", toJson l.sampleFormat)]
  ofJson? v := do
    match ← Json.fields?
        ["rx_mask", "num_chirps", "num_samples_per_chirp", "sample_bits", "sample_format"] v with
    | [mask, chirps, samples, bits, format] =>
      return ⟨← ofJson? mask, ← Json.size? chirps, ← Json.size? samples, ← Json.word? bits,
        ← ofJson? format⟩
    | _ => none

end RadarHost
