import RadarHost.Bench.Course
import RadarHost.Cli.Console
import RadarHost.Cli.Invocation
import RadarHost.Frame.Samples

/-!
# Running the command line

There is no support for serial ports, so that only simulated boards can be found: one at each port
that is named, or one at all. They stream frames of the layout that is asked for, one every twenty
milliseconds of the bench's clock.
-/

namespace RadarHost.Cli

/-- The version of the program. -/
def version : String := "0.1.0"

/-- Time between the frames of a simulated board. -/
def frameInterval : Duration := Duration.ofMillis 20

/-- How long the program waits for a frame before it gives up. -/
def patience : Duration := Duration.ofSecs 2

/-- Simulated boards with frames of `payloadLen` bytes, one at each of the named ports. -/
def simulatedPorts (candidates : List String) (payloadLen : Nat) : Ports :=
  let board := SimulatedBoard.default.streaming payloadLen frameInterval
  .boards ((if candidates.isEmpty then ["sim0"] else candidates).map (·, board))

/-- The ports to probe: those asked for, or all that the bench has. -/
def Console.candidates (c : Console) (link : LinkOptions) : List String :=
  if link.candidates.isEmpty then c.bench.portNames else link.candidates

/-- The end of a run that would need serial ports. -/
def Console.withoutSerial (c : Console) (task : String) : Transcript :=
  c.fail
    ["Error: Serial support not enabled. Rebuild with --features serial, or use --simulate:",
      s!"cargo run -p radarlink-app --features serial -- {task}"]

/-- What is said of a dialogue that broke off. -/
def breakdownText : Breakdown → String
  | .crashed => "line crashed"
  | .exhausted => "no end in sight"

/-! ## Tasks -/

/-- Lists the serial ports. -/
def devices (c : Console) : Transcript :=
  ((c.note .info "Scanning for serial ports...").note .warn
    "Serial support not enabled. Rebuild with --features serial").succeed

/-- Shows the board of a session. -/
def Console.printBoard (c : Console) (s : Session) : Console :=
  c.print s!"Board:    {s.descriptor.name}"
    |>.print s!"Port:     {s.identifier}"
    |>.print s!"Baud:     {s.baudRate.toNat}"
    |>.print s!"USB id:   {hexWordLower 4 s.info.vid.toNat}:{hexWordLower 4 s.info.pid.toNat}"
    |>.print s!"Protocol: {s.info.protocolVersion.toNat}"
    |>.print s!"Firmware: {s.info.firmware.text}"

/-- Finds a board and shows it. -/
def discover (options : DiscoverOptions) (c : Console) : Transcript :=
  if options.link.simulate then
    let c := { c with bench := Bench.ofPorts (simulatedPorts options.link.candidates 0) }
    let candidates := c.candidates options.link
    let c := c.note .info s!"Probing {candidates.length} port(s)..."
    let config := options.link.config
    let (ending, bench) :=
      if options.parallel then
        Discovery.discoverParallel Bench.answer [] Course.budget config candidates c.bench
      else c.bench.run (Discovery.discover Course.budget config candidates)
    let c := c.withBench bench
    match ending with
    | .ok (.ok session) => ((c.printBoard session).run session.discard).2.succeed
    | .ok (.error e) =>
      (e.attempts.foldl (fun c a => c.note .warn s!"  {a.message}") c).failed e.message
    | .error why => c.failed (breakdownText why)
  else c.withoutSerial "discover"

/-- A number filled with blanks to six places. -/
def sixPlaces (n : Nat) : String :=
  let digits := toString n
  String.ofList (List.replicate (6 - digits.length) ' ') ++ digits

/-- Shows a frame that has been received: the range of the samples of its first antenna. -/
def Console.noteFrame (c : Console) (layout : FrameLayout) (frame : Frame) : Console :=
  let name := s!"frame {sixPlaces frame.sequence.toNat}"
  match layout.decodeFrame frame with
  | .ok samples =>
    let block := ((layout.antennaBlock samples 0).getD #[]).toList
    let least := (block.min?.getD 0).toNat
    let most := (block.max?.getD 0).toNat
    c.note .info s!"{name}: {frame.len} bytes, rx0 range {least}..={most}"
  | .error e => c.note .warn s!"{name}: cannot decode: {e.message}"

/-- Waits for the next frame of a producer, which goes on meanwhile. -/
def Console.awaitFrame (c : Console) (producer : Dialogue Session) :
    Option Frame × Dialogue Session × Console :=
  let deadline := c.bench.clock + patience
  let pauses (_ : Action) (b : Bench) : Bool :=
    !b.consumers.queue.frames.isEmpty || decide (deadline ≤ b.clock)
  let (producer, bench) := producer.runUntil Bench.answer pauses c.bench
  match bench.operate .dequeue with
  | (.taken frame, bench) => (frame, producer, c.withBench bench)
  | (_, bench) => (none, producer, c.withBench bench)

/-- Receives frames until there are `left` more or one does not come in time; gives how many there
are. -/
def Console.receive (layout : FrameLayout) : (left received : Nat) → Dialogue Session → Console →
    Nat × Dialogue Session × Console
  | 0, received, producer, c => (received, producer, c)
  | left + 1, received, producer, c =>
    match c.awaitFrame producer with
    | (some frame, producer, c) =>
      receive layout left (received + 1) producer (c.noteFrame layout frame)
    | (none, producer, c) =>
      (received, producer, c.note .warn "No frame within 2 s, giving up")

/-- Shows what became of the frames. -/
def Console.noteStats (c : Console) (received : Nat) (s : AcquisitionStats) : Console :=
  c.note .info <|
    s!"Consumed {received} frames ({s.framesReceived} received, {s.framesRejected} rejected, " ++
      s!"{s.framesCorrupt} corrupt, {s.framesEvicted} evicted)"

/-- Streams frames from the board of a session. -/
def Console.stream (c : Console) (options : StreamOptions) (payloadLen : Nat)
    (session : Session) : Transcript :=
  let layout := options.layout
  let count := options.frameCount
  let c := c.note .info <|
    s!"Streaming {count} frames from {session.descriptor.name} " ++
      s!"({layout.numRx} rx, {payloadLen} bytes/frame)"
  let config := options.acquisition
  match c.run (Acquisition.start Course.budget config session) with
  | (.ok (.ok session), c) =>
    let producer := Acquisition.produce Course.budget config.readTimeout session
    let (received, producer, c) := Console.receive layout count 0 producer c
    let stats := c.bench.stats
    let (_, c) := c.run (Dialogue.perform .requestStop)
    let (ending, c) := c.run producer
    let (session, c) := c.run (Acquisition.finish Course.budget ending)
    let c := c.noteStats received stats
    (c.run (Session.closeAny session.toOption.join)).2.succeed
  | (.ok (.error e), c) => c.failed e.message
  | (.error why, c) => c.failed (breakdownText why)

/-- Finds a board and streams frames from it. -/
def stream (options : StreamOptions) (c : Console) : Transcript :=
  if options.link.simulate then
    match options.layout.expectedPayloadLen with
    | .error e => c.failed e.message
    | .ok payloadLen =>
      let c := { c with bench := Bench.ofPorts (simulatedPorts options.link.candidates payloadLen) }
      match c.run (Discovery.discover Course.budget options.link.config
          (c.candidates options.link)) with
      | (.ok (.ok session), c) => c.stream options payloadLen session
      | (.ok (.error e), c) => c.failed e.message
      | (.error why, c) => c.failed (breakdownText why)
  else c.withoutSerial "stream"

/-! ## The whole run -/

/-- What is asked for by a run that only wants to know how the program is used. -/
def usage : List String :=
  ["Usage: radarlink [-l LEVEL] devices",
    "       radarlink [-l LEVEL] discover [--simulate] [--probe-timeout-ms MS] " ++
      "[--parallel] [PORT]...",
    "       radarlink [-l LEVEL] stream [--simulate] [--probe-timeout-ms MS] [-n FRAMES] " ++
      "[--queue-capacity FRAMES] [--rx-mask MASK] [--chirps COUNT] [--samples COUNT] " ++
      "[--packed] [PORT]..."]

/-- Carries out what a command line asks for. -/
def Invocation.run (i : Invocation) : Transcript :=
  let c : Console := ⟨Bench.ofPorts (.boards []), i.level, []⟩
  let c := c.note .info s!"Radarlink v{version}"
  match i.task with
  | .devices => devices c
  | .discover options => discover options c
  | .stream options => stream options c

/-- A run of the program on a command line. -/
def run (words : List String) : Transcript :=
  match Invocation.parse words with
  | .ok i => i.run
  | .error .usage => ⟨2, [], usage⟩
  | .error .help => ⟨0, usage, []⟩
  | .error .version => ⟨0, [s!"radarlink {version}"], []⟩

end RadarHost.Cli
