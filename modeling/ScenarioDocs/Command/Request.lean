import ScenarioDocs.Text.Basic

/-!
# Requests

What the command line asks for. An option takes its value from its own
argument, after an equals sign or, if it is a short one, right after its
letter; otherwise the next argument is the value, unless it looks like an
option itself. Options other than paths are given at most once.
-/

namespace ScenarioDocs

structure Overrides where
  config : Option Text
  docName : Option Text
  outputDir : Option Text
  /-- None means the configured ones. -/
  paths : List Text
  deriving DecidableEq

inductive Request
  | init (force : Bool)
  | generate (o : Overrides)
  | check (o : Overrides)
  | scan (o : Overrides) (format : Text)
  | help
  | version
  deriving DecidableEq

namespace Request

inductive Verb
  | init
  | generate
  | check
  | scan
  deriving DecidableEq

inductive Switch
  | config
  | docName
  | outputDir
  | path
  | format
  | force
  | help
  deriving DecidableEq

def verbs : List (Text × Verb) :=
  [("init", .init), ("generate", .generate), ("check", .check), ("scan", .scan)]

def longSwitches : List (Text × Switch) :=
  [("config", .config), ("doc-name", .docName), ("output-dir", .outputDir), ("path", .path),
    ("format", .format), ("force", .force), ("help", .help)]

def shortSwitches : List (Char × Switch) :=
  [('c', .config), ('o', .outputDir), ('p', .path), ('h', .help)]

def Verb.knows : Verb → Switch → Bool
  | _, .help => true
  | .init, s => s = .force
  | .scan, s => s ≠ .force
  | _, s => s ≠ .force && s ≠ .format

/-! ## Single arguments -/

inductive Word
  /-- Two dashes: no options come after them. -/
  | dashes
  | help
  | force
  /-- An option with the value that stands in the same argument. -/
  | valued (s : Switch) (value : Option Text)
  | refused

def Word.ofSwitch (verb : Verb) (s : Switch) (value : Option Text) : Word :=
  if verb.knows s then
    match s, value with
    | .help, none => .help
    | .force, none => .force
    | .help, some _ => .refused
    | .force, some _ => .refused
    | s, value => .valued s value
  else .refused

def Word.ofLong (verb : Verb) (name : Text) (value : Option Text) : Word :=
  match longSwitches.lookup name with
  | some s => .ofSwitch verb s value
  | none => .refused

def Word.ofShort (verb : Verb) (letter : Char) (value : Option Text) : Word :=
  match shortSwitches.lookup letter with
  | some .help => .help
  | some s => .ofSwitch verb s value
  | none => .refused

def Word.ofArgument (verb : Verb) : Text → Word
  | ['-', '-'] => .dashes
  | '-' :: '-' :: t =>
    match t.dropWhile (· ≠ '=') with
    | '=' :: value => .ofLong verb (t.takeWhile (· ≠ '=')) (some value)
    | _ => .ofLong verb t none
  | ['-', letter] => .ofShort verb letter none
  | '-' :: letter :: '=' :: value => .ofShort verb letter (some value)
  | '-' :: letter :: value => .ofShort verb letter (some value)
  | _ => .refused

def looksLikeOption (arg : Text) : Bool := arg.head? = some '-' && arg.length ≠ 1

/-! ## Options -/

structure Options where
  force : Bool
  overrides : Overrides
  format : Option Text

def Options.none : Options := ⟨false, ⟨.none, .none, .none, []⟩, .none⟩

/-- A value for an option that has none yet. -/
def once (old : Option Text) (value : Text) : Option Text :=
  if old.isSome then none else some value

def oncePath (old : Option Text) (value : Text) : Option Text :=
  if value = [] then none else once old value

def Options.take (o : Options) (s : Switch) (value : Text) : Option Options :=
  let v := o.overrides
  match s with
  | .config => (oncePath v.config value).map fun t => { o with overrides := { v with config := t } }
  | .docName => (once v.docName value).map fun t => { o with overrides := { v with docName := t } }
  | .outputDir =>
    (oncePath v.outputDir value).map fun t => { o with overrides := { v with outputDir := t } }
  | .path => some { o with overrides := { v with paths := v.paths ++ [value] } }
  | .format => (once o.format value).map fun t => { o with format := t }
  | _ => none

/-- Reads the options of a command; `none` inside the answer stands for a call for help. -/
def readOptions (verb : Verb) (o : Options) : List Text → Option (Option Options)
  | [] => some (some o)
  | arg :: args =>
    match Word.ofArgument verb arg with
    | .dashes => if args = [] then some (some o) else none
    | .help => some none
    | .force => if o.force then none else readOptions verb { o with force := true } args
    | .refused => none
    | .valued s (some value) => (o.take s value).bind fun o => readOptions verb o args
    | .valued s none =>
      match args with
      | [] => none
      | value :: args =>
        if looksLikeOption value then none
        else (o.take s value).bind fun o => readOptions verb o args

def ofOptions (o : Options) : Verb → Request
  | .init => .init o.force
  | .generate => .generate o.overrides
  | .check => .check o.overrides
  | .scan => .scan o.overrides (o.format.getD "text")

def parse? : List Text → Option Request
  | [] => none
  | first :: args =>
    match verbs.lookup first with
    | some verb =>
      (readOptions verb .none args).map fun o => (o.map fun o => ofOptions o verb).getD .help
    | none =>
      if first = "help".toList then
        match args with
        | [] => some .help
        | [topic] => if (verbs.lookup topic).isSome ∨ topic = first then some .help else none
        | _ => none
      else if first = "--help".toList then some .help
      else if first = "--version".toList then some .version
      else match first with
        | '-' :: 'h' :: _ => some .help
        | '-' :: 'V' :: _ => some .version
        | _ => none

end Request

end ScenarioDocs
