import RadarHost.Bytes
import RadarHost.Cli.Grammar
import RadarHost.Acquisition.Config
import RadarHost.Discovery.Config
import RadarHost.Frame.Layout
import RadarHost.Link.Event

/-!
# What the command line asks for

A level for the log, and one of three tasks: list the serial ports, find a board, or find one and
stream from it. No option may be given twice. `Invocation.parse` reads all this from the words of a
command line.
-/

namespace RadarHost.Cli

/-- Where a board is looked for. -/
structure LinkOptions where
  /-- The ports to probe; none for all there are. -/
  candidates : List String
  /-- Whether simulated boards take the place of serial ports. -/
  simulate : Bool
  probeTimeoutMs : Option Nat
  deriving DecidableEq, Repr

def LinkOptions.none : LinkOptions := ⟨[], false, .none⟩

/-- How discovery looks for boards under these options. -/
def LinkOptions.config (o : LinkOptions) : DiscoveryConfig :=
  { DiscoveryConfig.default with probeTimeout := Duration.ofMillis (o.probeTimeoutMs.getD 200) }

structure DiscoverOptions where
  link : LinkOptions
  /-- Whether all ports are probed side by side. -/
  parallel : Bool
  deriving DecidableEq, Repr

structure StreamOptions where
  link : LinkOptions
  frames : Option Nat
  queueCapacity : Option Nat
  rxMask : Option Nat
  chirps : Option Nat
  samples : Option Nat
  packed : Bool
  deriving DecidableEq, Repr

namespace StreamOptions

def none : StreamOptions := ⟨.none, .none, .none, .none, .none, .none, false⟩

/-- How many frames are to be received. -/
def frameCount (o : StreamOptions) : Nat := o.frames.getD 100

/-- The shape of the frames. -/
def layout (o : StreamOptions) : FrameLayout :=
  { FrameLayout.default with
    rxMask := UInt32.ofNat (o.rxMask.getD 7)
    numChirps := o.chirps.getD 32
    numSamplesPerChirp := o.samples.getD 64
    sampleFormat := if o.packed then .packed12 else .u16 }

/-- How the frames are acquired. -/
def acquisition (o : StreamOptions) : AcquisitionConfig :=
  { AcquisitionConfig.default with queueCapacity := o.queueCapacity.getD 16 }

end StreamOptions

inductive Task
  | devices
  | discover (options : DiscoverOptions)
  | stream (options : StreamOptions)
  deriving DecidableEq, Repr

structure Invocation where
  /-- Events below this level are not shown. -/
  level : Level
  task : Task
  deriving DecidableEq, Repr

/-! ## Values -/

/-- The number that a text of digits writes. -/
def digits? (text : List Char) : Option Nat :=
  if !text.isEmpty && text.all Char.isDigit then
    some (text.foldl (fun n c => 10 * n + (c.toNat - '0'.toNat)) 0)
  else none

/-- The number of at most `max` that a text writes, with a plus sign or without. -/
def natural? (max : Nat) (text : String) : Option Nat :=
  let n := match text.toList with
    | '+' :: rest => digits? rest
    | rest => digits? rest
  n.filter (· ≤ max)

/-- The number of 32 bits that a text writes. It may have a minus sign as long as it is zero. -/
def word? (text : String) : Option Nat :=
  match text.toList with
  | '-' :: rest => (digits? rest).filter (· = 0)
  | _ => natural? largestWord text

/-- The level of a name in any case; what names none is the level of information. -/
def levelOfName (name : String) : Level :=
  ([.trace, .debug, .info, .warn, .error].find? (·.name == name.toUpper)).getD .info

/-! ## Options -/

/-- Gives an option its value, unless it has one or the value is not good. -/
def once {α : Type} (old new : Option α) : Option (Option α) :=
  match old, new with
  | none, some value => some (some value)
  | _, _ => none

/-- Turns a switch on that is off. -/
def turnedOn (old : Bool) : Option Bool := if old then none else some true

/-- The options of every command. -/
def commonOption? {σ : Type} : OptionName → Option (Setting σ)
  | .long "help" | .short 'h' => some (.stop .help)
  | _ => none

/-- The options before the task. -/
def mainGrammar : Grammar (Option String) where
  option?
    | .long "log-level" | .short 'l' => some (.valued fun text s => once s (some text))
    | .long "version" | .short 'V' => some (.stop .version)
    | name => commonOption? name
  operand? _ _ := none
  isCommand word := ["devices", "discover", "stream", "help"].contains word

def devicesGrammar : Grammar Unit where
  option? := commonOption?
  operand? _ _ := none
  isCommand _ := false

/-- An option of all tasks that look for a board. -/
def linkOption? {σ : Type} (get : σ → LinkOptions) (put : σ → LinkOptions → σ) :
    OptionName → Option (Setting σ)
  | .long "simulate" => some (.switch fun s => do
      let simulate ← turnedOn (get s).simulate
      return put s { get s with simulate })
  | .long "probe-timeout-ms" => some (.valued fun text s => do
      let probeTimeoutMs ← once (get s).probeTimeoutMs (natural? largestSize text)
      return put s { get s with probeTimeoutMs })
  | name => commonOption? name

/-- One candidate more. -/
def LinkOptions.addCandidate (o : LinkOptions) (candidate : String) : LinkOptions :=
  { o with candidates := o.candidates ++ [candidate] }

def discoverGrammar : Grammar DiscoverOptions where
  option?
    | .long "parallel" => some (.switch fun s => do
        return { s with parallel := ← turnedOn s.parallel })
    | name => linkOption? (·.link) (fun s link => { s with link }) name
  operand? word s := some { s with link := s.link.addCandidate word }
  isCommand _ := false

def streamGrammar : Grammar StreamOptions where
  option?
    | .long "frames" | .short 'n' => some (.valued fun text s => do
        return { s with frames := ← once s.frames (natural? largestSize text) })
    | .long "queue-capacity" => some (.valued fun text s => do
        return { s with queueCapacity := ← once s.queueCapacity (natural? largestSize text) })
    | .long "rx-mask" => some (.valued fun text s => do
        return { s with rxMask := ← once s.rxMask (word? text) })
    | .long "chirps" => some (.valued fun text s => do
        return { s with chirps := ← once s.chirps (natural? largestSize text) })
    | .long "samples" => some (.valued fun text s => do
        return { s with samples := ← once s.samples (natural? largestSize text) })
    | .long "packed" => some (.switch fun s => do
        return { s with packed := ← turnedOn s.packed })
    | name => linkOption? (·.link) (fun s link => { s with link }) name
  operand? word s := some { s with link := s.link.addCandidate word }
  isCommand _ := false

/-! ## The whole line -/

/-- The task that a command and the words behind it ask for. -/
def Task.parse : List String → Except Stop Task
  | "devices" :: words => do
    let _ ← devicesGrammar.scan none words ()
    return .devices
  | "discover" :: words => do
    let (options, _) ← discoverGrammar.scan none words ⟨.none, false⟩
    return .discover options
  | "stream" :: words => do
    let (options, _) ← streamGrammar.scan none words .none
    return .stream options
  | ["help"] => .error .help
  | ["help", command] => .error (if mainGrammar.isCommand command then .help else .usage)
  | _ => .error .usage

/-- What a command line asks for. -/
def Invocation.parse (words : List String) : Except Stop Invocation := do
  let (level, rest) ← mainGrammar.scan none words none
  let task ← Task.parse rest
  return { level := levelOfName (level.getD "info"), task }

end RadarHost.Cli
