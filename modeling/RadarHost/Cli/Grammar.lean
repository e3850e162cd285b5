/-!
# Reading a command line

The words of a command line are options, which begin with a dash, and operands. A long option may
carry its value behind an equals sign, a short one right behind its letter, and letters may stand
together behind one dash; otherwise the value is the next word, unless that begins with a dash
itself. After a word of two dashes all words are operands.

`Grammar.scan` takes the words in as they come, so that of two reasons to stop the earlier one wins.
-/

namespace RadarHost.Cli

/-- Why the reading of a command line ends early. -/
inductive Stop
  /-- The words are not as the grammar has them. -/
  | usage
  | help
  | version
  deriving DecidableEq, Repr

/-- The name of an option. -/
inductive OptionName
  | long (name : String)
  | short (letter : Char)
  deriving DecidableEq, Repr

/-- What an option does to the settings; none where it must not stand. -/
inductive Setting (σ : Type)
  | switch (set : σ → Option σ)
  | valued (set : String → σ → Option σ)
  | stop (why : Stop)

/-- The options and operands of a command. -/
structure Grammar (σ : Type) where
  option? : OptionName → Option (Setting σ)
  operand? : String → σ → Option σ
  /-- Words at which the reading ends, and another grammar goes on. -/
  isCommand : String → Bool

/-- What a word is by its looks. -/
inductive Word
  | separator
  | long (name : String) (value : Option String)
  | short (letters : List Char)
  | plain
  deriving DecidableEq, Repr

/-- A text up to the first equals sign, and what is behind it. -/
def splitValue (text : List Char) : String × Option String :=
  match text.dropWhile (· != '=') with
  | [] => (String.ofList text, none)
  | _ :: value => (String.ofList (text.takeWhile (· != '=')), some (String.ofList value))

/-- Looks at a word. A dash alone is a plain word. -/
def Word.ofText (text : String) : Word :=
  match text.toList with
  | ['-', '-'] => separator
  | '-' :: '-' :: rest => let (name, value) := splitValue rest; long name value
  | '-' :: letter :: rest => short (letter :: rest)
  | _ => plain

namespace Grammar

variable {σ : Type}

/-- An option that still has to get its value. -/
abbrev Pending (σ : Type) := Option (String → σ → Option σ)

/-- Settings, if the words allow them. -/
def allowed (settings : Option σ) : Except Stop σ :=
  match settings with
  | some s => .ok s
  | none => .error .usage

/-- Takes in a long option. -/
def takeLong (g : Grammar σ) (name : String) (value : Option String) (s : σ) :
    Except Stop (σ × Pending σ) :=
  match g.option? (.long name), value with
  | some (.switch set), none => (allowed (set s)).map (·, none)
  | some (.valued set), some value => (allowed (set value s)).map (·, none)
  | some (.valued set), none => .ok (s, some set)
  | some (.stop why), none => .error why
  | _, _ => .error .usage

/-- The value that stands right behind the letter of an option, with an equals sign or without. -/
def attached : List Char → Option String
  | [] => none
  | '=' :: value => some (String.ofList value)
  | value => some (String.ofList value)

/-- Takes in the letters behind a dash. -/
def takeLetters (g : Grammar σ) : List Char → σ → Except Stop (σ × Pending σ)
  | [], s => .ok (s, none)
  | letter :: rest, s =>
    match g.option? (.short letter) with
    | some (.switch set) =>
      match set s with
      | some s => takeLetters g rest s
      | none => .error .usage
    | some (.valued set) =>
      match attached rest with
      | some value => (allowed (set value s)).map (·, none)
      | none => .ok (s, some set)
    | some (.stop why) => .error why
    | none => .error .usage

/-- Takes in words as operands. -/
def takeOperands (g : Grammar σ) : List String → σ → Except Stop σ
  | [], s => .ok s
  | word :: rest, s =>
    match g.operand? word s with
    | some s => takeOperands g rest s
    | none => .error .usage

/-- Takes in words up to the first command among them; gives the settings and the words from there
on. -/
def scan (g : Grammar σ) : Pending σ → List String → σ → Except Stop (σ × List String)
  | some _, [], _ => .error .usage
  | none, [], s => .ok (s, [])
  | some set, word :: rest, s =>
    match Word.ofText word, set word s with
    | .plain, some s => scan g none rest s
    | _, _ => .error .usage
  | none, word :: rest, s =>
    match Word.ofText word with
    | .separator => (takeOperands g rest s).map (·, [])
    | .long name value =>
      match g.takeLong name value s with
      | .ok (s, pending) => scan g pending rest s
      | .error why => .error why
    | .short letters =>
      match g.takeLetters letters s with
      | .ok (s, pending) => scan g pending rest s
      | .error why => .error why
    | .plain =>
      if g.isCommand word then .ok (s, word :: rest)
      else
        match g.operand? word s with
        | some s => scan g none rest s
        | none => .error .usage

end Grammar

end RadarHost.Cli
