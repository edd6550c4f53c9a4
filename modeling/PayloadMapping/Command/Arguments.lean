set_option autoImplicit false

/-!
# Arguments of the command line

What a list of arguments asks for. Options and flags may stand anywhere among the inputs and are
given at most once; `--` ends them. The value of an option follows it, or is joined to it. An
argument that asks for help is answered as soon as it is reached.
-/

namespace PayloadMapping.Command

structure TransformRequest where
  inputs : List String
  mapping : String
  output : Option String
  config : Option String
  providerAttributes : Option String
  strict : Bool
  report : Bool
deriving DecidableEq

inductive HelpPage where
  | general | transform | check | help
deriving DecidableEq

inductive Request where
  | help (page : HelpPage)
  | version
  | transform (request : TransformRequest)
  | check (mapping : String)
  | invalid
deriving DecidableEq

inductive OptionName where
  | mapping | output | config | providerAttributes
deriving DecidableEq

inductive Flag where
  | strict | report
deriving DecidableEq

inductive Item where
  | input (path : String)
  | option (name : OptionName) (value : String) (rest : List String)
  | flag (flag : Flag)
  | help
  | endOfOptions
  | invalid

def longOption? (name : String) : Option OptionName :=
  match name with
  | "mapping" => some .mapping
  | "output" => some .output
  | "config" => some .config
  | "instance" => some .providerAttributes
  | _ => none

def shortOption? (name : Char) : Option OptionName :=
  match name with
  | 'm' => some .mapping
  | 'o' => some .output
  | _ => none

def longFlag? (name : String) : Option Flag :=
  match name with
  | "strict" => some .strict
  | "report" => some .report
  | _ => none

/-- An option whose value is the next argument. The value must not look like an option. -/
def withNext (name : OptionName) (rest : List String) : Item :=
  match rest with
  | [] => .invalid
  | value :: rest =>
    match value.toList with
    | [] | '-' :: _ :: _ => .invalid
    | _ => .option name value rest

def withValue (name : OptionName) (value : List Char) (rest : List String) : Item :=
  if value = [] then .invalid else .option name (String.ofList value) rest

def longItem (cs : List Char) (rest : List String) : Item :=
  let name := String.ofList (cs.takeWhile (· ≠ '='))
  match cs.dropWhile (· ≠ '=') with
  | _ :: value =>
    match longOption? name with
    | some option => withValue option value rest
    | none => .invalid
  | [] =>
    match longOption? name, longFlag? name with
    | some option, _ => withNext option rest
    | none, some flag => .flag flag
    | none, none => if name = "help" then .help else .invalid

def shortItem (c : Char) (cs : List Char) (rest : List String) : Item :=
  match shortOption? c with
  | some option =>
    match cs with
    | [] => withNext option rest
    | '=' :: value => withValue option value rest
    | value => withValue option value rest
  | none => if c = 'h' then .help else .invalid

def item (argument : String) (rest : List String) : Item :=
  match argument.toList with
  | [] => .invalid
  | ['-', '-'] => .endOfOptions
  | '-' :: '-' :: cs => longItem cs rest
  | '-' :: c :: cs => shortItem c cs rest
  | _ => .input argument

structure Given where
  inputs : List String := []
  mapping : Option String := none
  output : Option String := none
  config : Option String := none
  providerAttributes : Option String := none
  strict : Bool := false
  report : Bool := false

namespace Given

def value? (given : Given) : OptionName → Option String
  | .mapping => given.mapping
  | .output => given.output
  | .config => given.config
  | .providerAttributes => given.providerAttributes

def setValue (given : Given) (name : OptionName) (value : String) : Given :=
  match name with
  | .mapping => { given with mapping := some value }
  | .output => { given with output := some value }
  | .config => { given with config := some value }
  | .providerAttributes => { given with providerAttributes := some value }

def hasFlag (given : Given) : Flag → Bool
  | .strict => given.strict
  | .report => given.report

def setFlag (given : Given) : Flag → Given
  | .strict => { given with strict := true }
  | .report => { given with report := true }

def addInputs (given : Given) (paths : List String) : Given :=
  { given with inputs := given.inputs ++ paths }

def toTransform (given : Given) : Request :=
  match given.mapping with
  | some mapping =>
    if given.inputs = [] then .invalid
    else
      .transform
        { inputs := given.inputs
          mapping := mapping
          output := given.output
          config := given.config
          providerAttributes := given.providerAttributes
          strict := given.strict
          report := given.report }
  | none => .invalid

end Given

/-- Arguments after the end of options are inputs, which must not be empty. -/
def allInputs (given : Given) (rest : List String) : Request :=
  if rest.contains "" then .invalid else (given.addInputs rest).toTransform

def transformRequest (given : Given) : Nat → List String → Request
  | 0, _ => .invalid
  | _, [] => given.toTransform
  | steps + 1, argument :: rest =>
    match item argument rest with
    | .input path => transformRequest (given.addInputs [path]) steps rest
    | .option name value rest =>
      if (given.value? name).isSome then .invalid
      else transformRequest (given.setValue name value) steps rest
    | .flag flag =>
      if given.hasFlag flag then .invalid else transformRequest (given.setFlag flag) steps rest
    | .help => .help .transform
    | .endOfOptions => allInputs given rest
    | .invalid => .invalid

def checkRequest (mapping : Option String) : List String → Request
  | [] =>
    match mapping with
    | some path => .check path
    | none => .invalid
  | argument :: rest =>
    match argument.toList, mapping with
    | ['-', '-'], _ =>
      match mapping.toList ++ rest with
      | [path] => if path = "" then .invalid else .check path
      | _ => .invalid
    | '-' :: 'h' :: _, _ => .help .check
    | '-' :: _ :: _, _ => if argument = "--help" then .help .check else .invalid
    | [], _ | _, some _ => .invalid
    | _, none => checkRequest (some argument) rest

def helpRequest : List String → Request
  | [] => .help .general
  | ["transform"] => .help .transform
  | ["check"] => .help .check
  | ["help"] => .help .help
  | _ => .invalid

def Request.ofArguments (arguments : List String) : Request :=
  match arguments with
  | "transform" :: rest => transformRequest {} (rest.length + 1) rest
  | "check" :: rest => checkRequest none rest
  | "help" :: rest => helpRequest rest
  | "--version" :: _ => .version
  | "--help" :: _ => .help .general
  | argument :: _ =>
    match argument.toList with
    | '-' :: 'V' :: _ => .version
    | '-' :: 'h' :: _ => .help .general
    | _ => .invalid
  | [] => .invalid

end PayloadMapping.Command
