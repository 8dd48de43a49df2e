/-!
# Command-line arguments

The tool has two commands. Options may stand before and behind the arguments of a
command. An option with a value takes it from behind an equals sign, from the rest
of its cluster of short options, or from the next argument, which must not look like
an option. No option but the one for verbosity is given twice. Behind two hyphens
there are no options.
-/

namespace KiwiFront.Command

/-- What the command for a file is told. -/
structure Invocation where
  path : String
  format : String
  /-- A file with settings. -/
  settings? : Option String
  showSpans : Bool
deriving DecidableEq

/-- What the tool is told to do. -/
inductive Action where
  | showVersion
  | showHelp
  | listFormats
  | process (invocation : Invocation)
deriving DecidableEq

/-- What the tool is told to do, and how much to tell about it. -/
structure Order where
  action : Action
  verbosity : Nat
deriving DecidableEq

/-- The format unless another one is asked for. -/
def defaultFormat : String := "ast-treeviz"

/-- The name of the command for a file. -/
def processName : String := "process"

/-- The name of the command that lists formats. -/
def listName : String := "list-formats"

/-- The name of the command for help. -/
def helpName : String := "help"

/-- An option, written out or as one letter. -/
inductive OptionName where
  | long (name : String)
  | short (letter : Char)
deriving DecidableEq

/-- An argument by its form. -/
inductive Argument where
  /-- Two hyphens by themselves. -/
  | divider
  | long (name : String) (value? : Option String)
  | cluster (letters : List Char)
  | plain (text : String)
deriving DecidableEq

/-- Cuts characters at the first equals sign. -/
def cutAtEquals (characters : List Char) : String × Option String :=
  let isOther (character : Char) : Bool := character != '='
  let value? := match characters.dropWhile isOther with
    | [] => none
    | _ :: value => some (String.ofList value)
  (String.ofList (characters.takeWhile isOther), value?)

/-- The form of an argument. A single hyphen is a plain text. -/
def Argument.ofText (text : String) : Argument :=
  match text.toList with
  | ['-', '-'] => .divider
  | '-' :: '-' :: rest =>
      let (name, value?) := cutAtEquals rest
      .long name value?
  | '-' :: letter :: rest => .cluster (letter :: rest)
  | _ => .plain text

/-- What has been read of the arguments of the command for a file. -/
structure Draft where
  path? : Option String
  format? : Option String
  settings? : Option String
  hideSpans : Bool
  verbosity : Nat

namespace Draft

/-- Nothing has been read. -/
def empty : Draft := ⟨none, none, none, false, 0⟩

/-- Takes the path. -/
def withPath (draft : Draft) (path : String) : Option Draft :=
  if draft.path?.isSome then none else some { draft with path? := some path }

/-- Takes an option without a value; nothing for other options. -/
def withFlag (draft : Draft) (option : OptionName) : Option Draft :=
  if option ∈ [.long "verbose", .short 'v'] then
    some { draft with verbosity := draft.verbosity + 1 }
  else if option = .long "no-spans" then
    if draft.hideSpans then none else some { draft with hideSpans := true }
  else none

/-- Takes an option with its value; nothing for other options. -/
def withValue (draft : Draft) (option : OptionName) (value : String) : Option Draft :=
  if option ∈ [.long "format", .short 'f'] then
    if draft.format?.isSome then none else some { draft with format? := some value }
  else if option ∈ [.long "config", .short 'c'] then
    if draft.settings?.isSome then none else some { draft with settings? := some value }
  else none

/-- The complete invocation. -/
def complete (draft : Draft) : Option Order := do
  let path ← draft.path?
  return ⟨.process ⟨path, draft.format?.getD defaultFormat, draft.settings?,
    !draft.hideSpans⟩, draft.verbosity⟩

end Draft

/-- Whether an option asks for help. -/
def asksForHelp (option : OptionName) : Bool :=
  option ∈ [.long "help", .short 'h']

/-- Whether an option of the command for a file takes a value. -/
def takesValue (option : OptionName) : Bool :=
  option ∈ [.long "format", .short 'f', .long "config", .short 'c']

/-- What reading some arguments came to so far. -/
inductive Progress where
  | reading (draft : Draft)
  /-- An option still lacks its value. -/
  | awaiting (draft : Draft) (option : OptionName)
  | help
  | refused

/-- Goes on with a draft, if there is one. -/
def Progress.ofDraft? : Option Draft -> Progress
  | some draft => .reading draft
  | none => .refused

/-- Reads a cluster of short options. -/
def readCluster (draft : Draft) : List Char -> Progress
  | [] => .reading draft
  | letter :: rest =>
      let option := OptionName.short letter
      if asksForHelp option then .help
      else if takesValue option then
        match rest with
        | [] => .awaiting draft option
        | '=' :: value => .ofDraft? (draft.withValue option (String.ofList value))
        | value => .ofDraft? (draft.withValue option (String.ofList value))
      else
        match draft.withFlag option with
        | some draft => readCluster draft rest
        | none => .refused

/-- Reads an option that is written out. -/
def readLong (draft : Draft) (name : String) (value? : Option String) : Progress :=
  let option := OptionName.long name
  match value? with
  | some value => .ofDraft? (draft.withValue option value)
  | none =>
      if asksForHelp option then .help
      else if takesValue option then .awaiting draft option
      else .ofDraft? (draft.withFlag option)

/-- Reads one argument of the command for a file. A divider is not one. -/
def Progress.read (progress : Progress) (argument : Argument) : Progress :=
  match progress, argument with
  | .reading draft, .long name value? => readLong draft name value?
  | .reading draft, .cluster letters => readCluster draft letters
  | .reading draft, .plain text => .ofDraft? (draft.withPath text)
  | .awaiting draft option, .plain text => .ofDraft? (draft.withValue option text)
  | .help, _ => .help
  | _, _ => .refused

/-- The order at the end of the arguments. -/
def Progress.finish : Progress -> Option Order
  | .reading draft => draft.complete
  | .help => some ⟨.showHelp, 0⟩
  | _ => none

/-- Reads arguments that are no options. -/
def Progress.readPlain (progress : Progress) (arguments : List String) : Progress :=
  arguments.foldl (fun progress text => progress.read (.plain text)) progress

/-- Reads the arguments of the command for a file. -/
def readProcess (progress : Progress) : List String -> Option Order
  | [] => progress.finish
  | text :: rest =>
      match Argument.ofText text, progress with
      | .divider, .reading draft => ((Progress.reading draft).readPlain rest).finish
      | argument, progress => readProcess (progress.read argument) rest

/-- Reads letters that ask for more detail. Other letters decide by themselves; only
the tool itself has one for its version. -/
def readLetters (hasVersion : Bool) (verbosity : Nat) :
    List Char -> Except (Option Order) Nat
  | [] => .ok verbosity
  | letter :: rest =>
      if letter = 'v' then readLetters hasVersion (verbosity + 1) rest
      else if letter = 'h' then .error (some ⟨.showHelp, verbosity⟩)
      else if letter = 'V' ∧ hasVersion then .error (some ⟨.showVersion, verbosity⟩)
      else .error none

/-- Reads the arguments of the command that lists formats. -/
def readList (verbosity : Nat) : List String -> Option Order
  | [] => some ⟨.listFormats, verbosity⟩
  | text :: rest =>
      match Argument.ofText text with
      | .divider => if rest.isEmpty then some ⟨.listFormats, verbosity⟩ else none
      | .long "verbose" none => readList (verbosity + 1) rest
      | .long "help" none => some ⟨.showHelp, verbosity⟩
      | .cluster letters =>
          match readLetters false verbosity letters with
          | .ok verbosity => readList verbosity rest
          | .error decided => decided
      | _ => none

/-- Keeps the verbosity asked for behind a command; the one from before it counts if
there is none. -/
def Order.withDefault (order : Order) (verbosity : Nat) : Order :=
  if order.verbosity = 0 then { order with verbosity := verbosity } else order

/-- Reads a command with its arguments. -/
def readCommand (name : String) (arguments : List String) : Option Order :=
  if name = processName then readProcess (.reading .empty) arguments
  else if name = listName then readList 0 arguments
  else if name = helpName then
    match arguments with
    | [] => some ⟨.showHelp, 0⟩
    | [topic] =>
        if topic ∈ [processName, listName, helpName] then some ⟨.showHelp, 0⟩ else none
    | _ => none
  else none

/-- Reads the arguments of the tool. -/
def readFrom (verbosity : Nat) : List String -> Option Order
  | [] => none
  | text :: rest =>
      match Argument.ofText text with
      | .long "verbose" none => readFrom (verbosity + 1) rest
      | .long "version" none => some ⟨.showVersion, verbosity⟩
      | .long "help" none => some ⟨.showHelp, verbosity⟩
      | .cluster letters =>
          match readLetters true verbosity letters with
          | .ok verbosity => readFrom verbosity rest
          | .error decided => decided
      | .plain name => (readCommand name rest).map (fun order => order.withDefault verbosity)
      | _ => none

/-- What the arguments of the tool tell it to do; nothing if they are no use. -/
def Order.ofArguments (arguments : List String) : Option Order :=
  readFrom 0 arguments

end KiwiFront.Command
