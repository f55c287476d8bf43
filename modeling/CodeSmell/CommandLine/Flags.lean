import CodeSmell.Text.Quoted

/-!
# Flags of the command line

A flag is given by its name behind two hyphens or, if it has one, by its letter behind one. Letters
may be joined behind one hyphen. A switch may be given a value behind an equals sign; any other flag
needs a value, which may also be the next argument. Flags and paths may be mixed, and everything
behind two hyphens alone is a path.
-/

set_option autoImplicit false

namespace CodeSmell

namespace CommandLine

/-- The flags. -/
inductive Flag where
  | config
  | format
  | generateConfig
  | help
  | verbose
  | watch
deriving DecidableEq, Repr

namespace Flag

/-- Every flag. -/
def all : List Flag := [.config, .format, .generateConfig, .help, .verbose, .watch]

/-- The name of a flag. -/
def name : Flag → String
  | .config => "config"
  | .format => "format"
  | .generateConfig => "generate-config"
  | .help => "help"
  | .verbose => "verbose"
  | .watch => "watch"

/-- The letter of a flag. -/
def letter? : Flag → Option Char
  | .config => some 'c'
  | .format => some 'f'
  | .generateConfig => none
  | .help => some 'h'
  | .verbose => some 'v'
  | .watch => some 'w'

/-- Whether a flag is a switch, which needs no value. -/
def isSwitch : Flag → Bool
  | .config => false
  | .format => false
  | _ => true

/-- A flag as messages show it. -/
def shown (f : Flag) : String :=
  match f.letter? with
  | some letter => "-" ++ letter.toString ++ ", --" ++ f.name
  | none => "--" ++ f.name

end Flag

/-- What the flags say, and the paths among them. -/
structure Options where
  config : String := ""
  format : String := ""
  generateConfig : Bool := false
  help : Bool := false
  verbose : Bool := false
  watch : Bool := false
  paths : List String := []

/-- What is wrong with the arguments. -/
inductive FlagError where
  | badSyntax (argument : String)
  | unknownName (name : String)
  | unknownLetter (letter : Char) (letters : String)
  | nameNeedsValue (argument : String)
  | letterNeedsValue (letter : Char) (letters : String)
  | badSwitch (value : String) (flag : Flag)

/-- A letter as messages show it: the character whose number is the first byte of the letter. -/
def shownLetter (letter : Char) : String :=
  let byte := ((String.utf8EncodeChar letter).head?.map UInt8.toNat).getD 0
  String.ofList (Quoted.encodeSingle (Char.ofNat byte))

/-- The wording of an error. -/
def FlagError.message : FlagError → String
  | .badSyntax argument => "bad flag syntax: " ++ argument
  | .unknownName name => "unknown flag: --" ++ name
  | .unknownLetter letter letters =>
    "unknown shorthand flag: " ++ shownLetter letter ++ " in -" ++ letters
  | .nameNeedsValue argument => "flag needs an argument: " ++ argument
  | .letterNeedsValue letter letters =>
    "flag needs an argument: " ++ shownLetter letter ++ " in -" ++ letters
  | .badSwitch value flag =>
    let quoted := String.ofList (Quoted.encode value)
    "invalid argument " ++ quoted ++ " for " ++ String.ofList (Quoted.encode flag.shown) ++
      " flag: strconv.ParseBool: parsing " ++ quoted ++ ": invalid syntax"

/-- The truth value that a word stands for. -/
def switchValue? (word : String) : Option Bool :=
  if ["1", "t", "T", "TRUE", "true", "True"].contains word then some true
  else if ["0", "f", "F", "FALSE", "false", "False"].contains word then some false
  else none

/-- Sets a switch; does nothing for another flag. -/
def Options.switch (o : Options) (b : Bool) : Flag → Options
  | .config => o
  | .format => o
  | .generateConfig => { o with generateConfig := b }
  | .help => { o with help := b }
  | .verbose => { o with verbose := b }
  | .watch => { o with watch := b }

/-- Sets a flag to a value. -/
def Options.set (o : Options) (f : Flag) (value : String) : Except FlagError Options :=
  match f with
  | .config => .ok { o with config := value }
  | .format => .ok { o with format := value }
  | f =>
    match switchValue? value with
    | some b => .ok (o.switch b f)
    | none => .error (.badSwitch value f)

/-- Reads a flag given by its name. `argument` is the whole argument and `body` what follows its two
hyphens. Returns the arguments that remain. -/
def readName (o : Options) (argument : String) (body : List Char) (rest : List String) :
    Except FlagError (Options × List String) :=
  if body.head? = some '-' || body.head? = some '=' then .error (.badSyntax argument)
  else
    let name := String.ofList (body.takeWhile (· ≠ '='))
    match Flag.all.find? (·.name = name) with
    | none => .error (.unknownName name)
    | some f =>
      match body.dropWhile (· ≠ '='), rest with
      | _ :: value, rest => (o.set f (String.ofList value)).map (·, rest)
      | [], rest =>
        if f.isSwitch then (o.set f "true").map (·, rest)
        else match rest with
          | value :: rest => (o.set f value).map (·, rest)
          | [] => .error (.nameNeedsValue argument)

/-- Reads letters behind a hyphen. Returns the arguments that remain. -/
def readLetters (o : Options) (rest : List String) :
    List Char → Except FlagError (Options × List String)
  | [] => .ok (o, rest)
  | letter :: letters =>
    let all := String.ofList (letter :: letters)
    match Flag.all.find? (·.letter? = some letter) with
    | none => .error (.unknownLetter letter all)
    | some f =>
      match letters with
      | '=' :: c :: value => (o.set f (String.ofList (c :: value))).map (·, rest)
      | letters =>
        if f.isSwitch then
          match o.set f "true" with
          | .ok o => readLetters o rest letters
          | .error e => .error e
        else if !letters.isEmpty then (o.set f (String.ofList letters)).map (·, rest)
        else match rest with
          | value :: rest => (o.set f value).map (·, rest)
          | [] => .error (.letterNeedsValue letter all)

/-- Reads arguments, at most `count` of them. -/
def readUpTo (count : Nat) (o : Options) (arguments : List String) : Except FlagError Options :=
  match count, arguments with
  | _, [] => .ok o
  | 0, _ => .ok o
  | count + 1, argument :: rest =>
    match argument.toList with
    | ['-', '-'] => .ok { o with paths := o.paths ++ rest }
    | '-' :: '-' :: body => do
      let (o, rest) ← readName o argument body rest
      readUpTo count o rest
    | '-' :: letter :: letters => do
      let (o, rest) ← readLetters o rest (letter :: letters)
      readUpTo count o rest
    | _ => readUpTo count { o with paths := o.paths ++ [argument] } rest

/-- Reads the arguments of a command line. -/
def Options.read (arguments : List String) : Except FlagError Options :=
  readUpTo arguments.length {} arguments

end CommandLine

end CodeSmell
