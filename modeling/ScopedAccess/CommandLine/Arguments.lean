import ScopedAccess.Number

namespace ScopedAccess

-- A fraction of naturals that a floating point number stands for.
structure Likeness where
  numerator : Nat
  denominator : Nat
deriving DecidableEq, Repr

namespace Likeness

def exceeds (a b : Likeness) : Bool := b.numerator * a.denominator < a.numerator * b.denominator

def rounded (n d : Nat) : Likeness :=
  match (Binary64.ofRatio false n d).ratio? with
  | some (numerator, denominator) => ⟨numerator, denominator⟩
  | none => ⟨0, 1⟩

def sum (a b : Likeness) : Likeness :=
  rounded (a.numerator * b.denominator + b.numerator * a.denominator) (a.denominator * b.denominator)

def third (a : Likeness) : Likeness := rounded a.numerator (3 * a.denominator)

def reach (left right : List Char) : Nat := max left.length right.length / 2 - 1

-- For each character of `left` from place `i` on, the place of its partner among those of `right` that
-- are not `taken`.
def partners (range : Nat) (right : List Char) : Nat → List Nat → List Char → List (Char × Nat)
  | _, _, [] => []
  | i, taken, c :: rest =>
    let near := (List.range (min right.length (i + range + 1))).find? fun j =>
      i - range ≤ j && right[j]? = some c && j ∉ taken
    match near with
    | some j => (c, j) :: partners range right (i + 1) (j :: taken) rest
    | none => partners range right (i + 1) taken rest

def between (left right : List Char) : Likeness :=
  if left.isEmpty && right.isEmpty then ⟨1, 1⟩
  else
    let found := partners (reach left right) right 0 [] left
    let places := (found.map (·.2)).mergeSort fun i j => i ≤ j
    let swapped := (List.zip (found.map (·.1)) places).countP fun (c, j) => right[j]? ≠ some c
    let (m, a, b) := (found.length, left.length, right.length)
    if m = 0 then ⟨0, 1⟩ else third (sum (sum (rounded m a) (rounded m b)) (rounded (m - swapped / 2) m))

def threshold : Likeness := rounded 7 10

-- The candidate most like a text, if any is like enough; of equals the last.
def closest? (text : String) (candidates : List String) : Option String :=
  let rated := candidates.map fun c => (c, between text.toList c.toList)
  let best := (rated.filter fun r => r.2.exceeds threshold).foldl (fun best r =>
    match best with
    | some b => if b.2.exceeds r.2 then some b else some r
    | none => some r) none
  best.map (·.1)

end Likeness

inductive Invocation where
  | help
  | version
  | serve (config : String)
deriving DecidableEq, Repr

-- `besideConfig` says whether a value for the option came before.
inductive UsageFault where
  | unexpected (argument : String) (alike : Option String) (besideConfig : Bool)
  | unneededValue (value name : String) (besideConfig : Bool)
  | missingValue
  | repeated
deriving DecidableEq, Repr

namespace Arguments

def commandName : String := "arbor"

def configUsage : String := "--config <CONFIG>"

def helpText : String := "\n".intercalate
  ["Hierarchical role-based authorization service",
   "",
   "Usage: " ++ commandName ++ " [OPTIONS]",
   "",
   "Options:",
   "  -c, " ++ configUsage ++ "  Path to configuration file [default: config.toml]",
   "  -h, --help             Print help",
   "  -V, --version          Print version",
   ""]

def versionText : String := commandName ++ " 0.1.0\n"

-- An option that was taken but has no value yet, or a value that was not checked for repetition yet.
inductive Pending where
  | nothing
  | awaiting
  | holding (value : String)
deriving DecidableEq, Repr

structure Progress where
  config : Option String
  pending : Pending
deriving DecidableEq, Repr

namespace Progress

def start : Progress := ⟨none, .nothing⟩

def settle (p : Progress) : Except UsageFault (Option String) :=
  match p.pending, p.config with
  | .nothing, config => .ok config
  | .awaiting, _ => .error .missingValue
  | .holding value, none => .ok (some value)
  | .holding _, some _ => .error .repeated

def hasConfig (p : Progress) : Bool :=
  match p.pending, p.config with
  | .holding _, config => config.isNone
  | _, config => config.isSome

end Progress

def optionNames : List String := ["config", "help", "version"]

def unexpected (argument : String) : UsageFault := .unexpected argument none false

def takeConfig (p : Progress) (value : Option String) : Except UsageFault Progress := do
  let config ← p.settle
  match value, config with
  | some value, none => .ok ⟨some value, .nothing⟩
  | some _, some _ => .error .repeated
  | none, config => .ok ⟨config, .awaiting⟩

-- An argument that asks for text ends the reading with it, any other lets it go on.
inductive Outcome where
  | continue (p : Progress)
  | stop (i : Invocation)

def answer (p : Progress) (i : Invocation) : Except UsageFault Outcome := p.settle.map fun _ => .stop i

def readLong (p : Progress) (argument : List Char) : Except UsageFault Outcome :=
  let name := String.ofList (argument.takeWhile (· ≠ '='))
  let value := match argument.dropWhile (· ≠ '=') with
    | _ :: value => some (String.ofList value)
    | [] => none
  match name, value with
  | "config", _ => (takeConfig p value).map .continue
  | "help", none => answer p .help
  | "version", none => answer p .version
  | "help", some value => .error (.unneededValue value "--help" p.config.isSome)
  | "version", some value => .error (.unneededValue value "--version" p.config.isSome)
  | _, _ => .error (.unexpected ("--" ++ name) (Likeness.closest? name optionNames) p.hasConfig)

def readShort (p : Progress) (letter : Char) (rest : List Char) : Except UsageFault Outcome :=
  match letter, rest with
  | 'c', [] => (takeConfig p none).map .continue
  | 'c', '=' :: value => (takeConfig p (some (String.ofList value))).map .continue
  | 'c', value => (takeConfig p (some (String.ofList value))).map .continue
  | 'h', _ => answer p .help
  | 'V', _ => answer p .version
  | _, _ => .error (unexpected ("-" ++ String.singleton letter))

def readOne (p : Progress) (argument : String) : Except UsageFault Outcome :=
  match argument.toList with
  | '-' :: '-' :: long => readLong p long
  | '-' :: letter :: rest => readShort p letter rest
  | _ =>
    if p.pending = .awaiting then .ok (.continue { p with pending := .holding argument })
    else .error (unexpected argument)

def readFrom (p : Progress) : List String → Except UsageFault Invocation
  | [] => p.settle.map fun config => .serve (config.getD "config.toml")
  -- Nothing behind two bare dashes is an option.
  | ["--"] => p.settle.map fun config => .serve (config.getD "config.toml")
  | "--" :: argument :: _ => .error (unexpected argument)
  | argument :: rest => do
    match ← readOne p argument with
    | .continue next => readFrom next rest
    | .stop invocation => .ok invocation

def read (arguments : List String) : Except UsageFault Invocation := readFrom .start arguments

end Arguments

namespace UsageFault

def usage (options : String) : List String := ["Usage: " ++ Arguments.commandName ++ " " ++ options, ""]

def option (name : String) : String := if name = "config" then Arguments.configUsage else "--" ++ name

def taken (besideConfig : Bool) : List String := if besideConfig then [Arguments.configUsage] else []

def usageOf (options : List String) : List String :=
  usage (if options.isEmpty then "[OPTIONS]" else " ".intercalate options)

def lines : UsageFault → List String
  | unexpected argument alike besideConfig =>
    let taken := taken besideConfig
    ["error: unexpected argument '" ++ argument ++ "' found", ""] ++
      match alike with
      | some name =>
        let listed := if besideConfig && name = "config" then taken else taken ++ [option name]
        ["  tip: a similar argument exists: '--" ++ name ++ "'", ""] ++ usageOf listed
      | none => usageOf taken
  | unneededValue value name besideConfig =>
    ["error: unexpected value '" ++ value ++ "' for '" ++ name ++ "' found; no more were expected", ""] ++
      usageOf (name :: (taken besideConfig).map fun option => "<" ++ option ++ ">")
  | missingValue => ["error: a value is required for '" ++ Arguments.configUsage ++ "' but none was supplied", ""]
  | repeated =>
    ["error: the argument '" ++ Arguments.configUsage ++ "' cannot be used multiple times", ""] ++ usage "[OPTIONS]"

def text (f : UsageFault) : String := "\n".intercalate (f.lines ++ ["For more information, try '--help'.", ""])

end UsageFault

end ScopedAccess
