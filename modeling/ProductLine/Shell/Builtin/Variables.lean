/- # Builtin commands on variables — and on options and arguments

A builtin command gets its arguments and returns its status.  What is wrong
with its arguments is a fault in the one dialect, which ends the command, and
a status in the other.
-/
import ProductLine.Shell.Expansion

namespace ProductLine.Shell.Sh

/-- Complains and fails: with a fault, or in the extended dialect with a status. -/
def refuse (status : Nat) (text : Chars) : Sh Nat := do
  if ← isExtended then
    complain text
    return status
  else fail text

/-- How the builtin commands of the extended dialect are used. -/
def usages : List (String × String) :=
  [(".", ". filename [arguments]"),
    ("alias", "alias [-p] [name[=value] ... ]"),
    ("builtin", "builtin [shell-builtin [arg ...]]"),
    ("cd", "cd [-L|[-P [-e]] [-@]] [dir]"),
    ("command", "command [-pVv] command [arg ...]"),
    ("declare", "declare [-aAfFgiIlnrtux] [name[=value] ...] or declare -p [-aAfFilnrtux] " ++
      "[name ...]"),
    ("disown", "disown [-h] [-ar] [jobspec ... | pid ...]"),
    ("enable", "enable [-a] [-dnps] [-f filename] [name ...]"),
    ("eval", "eval [arg ...]"),
    ("exec", "exec [-cl] [-a name] [command [argument ...]] [redirection ...]"),
    ("export", "export [-fn] [name[=value] ...] or export -p"),
    ("fc", "fc [-e ename] [-lnr] [first] [last] or fc -s [pat=rep] [command]"),
    ("getopts", "getopts optstring name [arg ...]"),
    ("hash", "hash [-lr] [-p pathname] [-dt] [name ...]"),
    ("help", "help [-dms] [pattern ...]"),
    ("history", "history [-c] [-d offset] [n] or history -anrw [filename] or history -ps " ++
      "arg [arg...]"),
    ("jobs", "jobs [-lnprs] [jobspec ...] or jobs -x command [args]"),
    ("kill", "kill [-s sigspec | -n signum | -sigspec] pid | jobspec ... or kill -l " ++
      "[sigspec]"),
    ("mapfile", "mapfile [-d delim] [-n count] [-O origin] [-s count] [-t] [-u fd] [-C " ++
      "callback] [-c quantum] [array]"),
    ("printf", "printf [-v var] format [arguments]"),
    ("pwd", "pwd [-LP]"),
    ("read", "read [-ers] [-a array] [-d delim] [-i text] [-n nchars] [-N nchars] [-p " ++
      "prompt] [-t timeout] [-u fd] [name ...]"),
    ("readarray", "readarray [-d delim] [-n count] [-O origin] [-s count] [-t] [-u fd] [-C " ++
      "callback] [-c quantum] [array]"),
    ("readonly", "readonly [-aAf] [name[=value] ...] or readonly -p"),
    ("set", "set [-abefhkmnptuvxBCEHPT] [-o option-name] [--] [-] [arg ...]"),
    ("shopt", "shopt [-pqsu] [-o] [optname ...]"),
    ("source", "source filename [arguments]"),
    ("suspend", "suspend [-f]"),
    ("times", "times"),
    ("trap", "trap [-lp] [[arg] signal_spec ...]"),
    ("type", "type [-afptP] name [name ...]"),
    ("typeset", "typeset [-aAfFgiIlnrtux] name[=value] ... or typeset -p [-aAfFilnrtux] " ++
      "[name ...]"),
    ("ulimit", "ulimit [-SHabcdefiklmnpqrstuvxPRT] [limit]"),
    ("umask", "umask [-p] [-S] [mode]"),
    ("unalias", "unalias [-a] name [name ...]"),
    ("unset", "unset [-f] [-v] [-n] [name ...]"),
    ("wait", "wait [-fn] [-p var] [id ...]"),
    ("dirs", "dirs [-clpv] [+N] [-N]"),
    ("popd", "popd [-n] [+N | -N]"),
    ("pushd", "pushd [-n] [+N | -N | dir]")]

/-- Says how a builtin command is used, if it says so. -/
def showUsage : Sh Unit := do
  let name := (← session).builtin
  match usages.lookup (String.ofList name) with
  | some usage => writeError (name ++ str ": usage: " ++ str usage ++ ['\n'])
  | none => return

/-- The complaint about an option that a builtin command does not have. -/
def illegalOption (letter : Char) : Sh Nat := do
  if ← isExtended then
    complain (['-', letter] ++ str ": invalid option")
    showUsage
    return 2
  else fail (str "Illegal option -" ++ [letter])

def numberArgument (text : Chars) : Sh Nat := do
  match Chars.toNat? text with
  | some n => if n < 2147483648 then return n else fail (str "Illegal number: " ++ text)
  | none => fail (str "Illegal number: " ++ text)

/-- The arguments without options of single letters, and those letters; `none` is given for a letter
that is not among the known ones. -/
def splitOptions (known : Chars) : List Chars → Except Char (Chars × List Chars)
  | [] => .ok ([], [])
  | word :: rest =>
    match word with
    | ['-', '-'] => .ok ([], rest)
    | '-' :: c :: more =>
      match (c :: more).find? fun letter => !known.contains letter with
      | some letter => .error letter
      | none => (splitOptions known rest).map fun (letters, others) =>
          ((c :: more) ++ letters, others)
    | _ => .ok ([], word :: rest)

/-! ## Listings -/

/-- A text in quotation marks, such that a shell reads it as it is: quotation marks inside stand in
marks of the other kind.  `fuel` bounds the length of the text. -/
def requoteAt : (fuel : Nat) → Chars → Chars
  | 0, _ => []
  | fuel + 1, text =>
    let front := text.takeWhile (· != '\'')
    let behind := text.drop front.length
    let marks := behind.takeWhile (· == '\'')
    let rest := behind.drop marks.length
    let shown := Chars.quoted front
    if marks.isEmpty then shown
    else
      let shown := shown ++ '"' :: marks ++ ['"']
      if rest.isEmpty then shown else shown ++ requoteAt fuel rest

/-- A text in quotation marks, such that a shell reads it as it is. -/
def requote (text : Chars) : Chars :=
  requoteAt (text.length + 1) text

def sortedBindings (s : Session) : List (Chars × Variable) :=
  s.bindings.mergeSort fun a b => Chars.le a.1 b.1

def declaration (extended : Bool) (command : Chars) (name : Chars) (v : Variable) : Chars :=
  if extended then declarationOf name v ++ ['\n']
  else
    let front := command ++ ' ' :: name
    match v.value with
    | some value => front ++ '=' :: requote value ++ ['\n']
    | none => front ++ ['\n']

/-- Writes to the output; the status says whether that succeeded. -/
def say (text : Chars) : Sh Nat := do
  if text.isEmpty then return 0
  match ← write 1 text with
  | .ok () => return 0
  | .error fault =>
    if ← isExtended then
      complain (str "write error: " ++ fault.reason.toList)
      return 1
    else
      let name := (← session).builtin
      complain (name ++ str ": I/O error")
      return 1

def listVariables (command : Chars) (test : Variable → Bool) : Sh Nat := do
  let s ← session
  let chosen := (sortedBindings s).filter fun (_, v) => test v
  say (chosen.flatMap fun (name, v) => declaration s.extended command name v)

/-! ## Attributes -/

/-- The name and the value of an argument that assigns. -/
def splitAssignment (word : Chars) : Chars × Option Chars :=
  let name := word.takeWhile (· != '=')
  if name.length < word.length then (name, some (word.drop (name.length + 1))) else (name, none)

def adjust (name : Chars) (f : Variable → Variable) : Sh Unit :=
  modifySession fun s => s.setVariable name (f ((s.setting? name).getD {}))

def mark (test : Variable → Bool) (setting : Bool → Variable → Variable) (letters : Chars)
    (words : List Chars) : Sh Nat := do
  let s ← session
  match splitOptions letters words with
  | .error letter => illegalOption letter
  | .ok (options, words) =>
    if options.contains 'f' then return 0
    else if words.isEmpty || (options.contains 'p' && !s.extended) then
      listVariables s.builtin test
    else
      let mut status := 0
      for word in words do
        let (name, value) := splitAssignment word
        if !Chars.isName name then
          if s.extended then
            let shown := if isTarget true name then name else word
            complain (str "\x60" ++ shown ++ str "': not a valid identifier")
            status := 1
          else fail (name ++ str ": bad variable name")
        else
          match value with
          | some value => assign name value
          | none => pure ()
          adjust name (setting (!options.contains 'n'))
      return status

def exportCommand (words : List Chars) : Sh Nat := do
  let letters := if ← isExtended then "pnf".toList else ['p']
  mark (·.exported) (fun on v => { v with exported := on }) letters words

def readonlyCommand (words : List Chars) : Sh Nat := do
  let letters := if ← isExtended then "pafA".toList else ['p']
  mark (·.readOnly) (fun _ v => { v with readOnly := true }) letters words

def unsetCommand (words : List Chars) : Sh Nat := do
  match splitOptions "vfn".toList words with
  | .error letter => illegalOption letter
  | .ok (letters, words) =>
    let extended ← isExtended
    let mut status := 0
    for word in words do
      if letters.contains 'f' then
        modifySession fun s => { s with functions := s.functions.filter (·.1 ≠ word) }
      else
        match if extended then splitItem? word else none with
        | some (name, key) =>
          match ← indexKey? name key with
          | some key =>
            adjust name fun v => { v with items := v.items.map (·.erase key) }
          | none =>
            complain ('[' :: key ++ str "]: bad array subscript")
            status := 1
        | none =>
          if !Chars.isName word && !extended then fail (word ++ str ": bad variable name")
          let s ← session
          let word := if letters.contains 'n' then word
            else s.referred Session.maxReferences word
          let v := s.bindings.lookup word
          if extended && v.any Variable.readOnly then
            complain (word ++ str ": cannot unset: readonly variable")
            status := 1
          else if v.isSome || !extended then unset word
          else modifySession fun s => { s with functions := s.functions.filter (·.1 ≠ word) }
    return status

/-- Remembers the value of a variable, to which it returns when the function ends. -/
def makeLocal (name : Chars) : Sh Unit :=
  modifySession fun s =>
    match s.locals with
    | frame :: rest =>
      if frame.any (·.1 == name) then s
      else { s with locals := ((name, s.bindings.lookup name) :: frame) :: rest }
    | [] => s

def restoreVariables (saved : List (Chars × Option Variable)) : Sh Unit :=
  modifySession fun s => saved.foldl (fun s (name, v) =>
    match v with
    | some v => s.bind name v
    | none => s.dropVariable name) s

def declared (letters : Chars) (v : Variable) : Variable :=
  { v with
    reference := v.reference || letters.contains 'n'
    upper := if letters.contains 'u' then some true
      else if letters.contains 'l' then some false else v.upper
    exported := v.exported || letters.contains 'x'
    readOnly := v.readOnly || letters.contains 'r'
    integer := v.integer || letters.contains 'i'
    items := if letters.contains 'a' || letters.contains 'A' then
        some (v.items.getD (.ofValue (letters.contains 'A') v.value))
      else v.items }

def declareCommand (isLocal : Bool) (words : List Chars) : Sh Nat := do
  let s ← session
  if isLocal && s.calls = 0 then
    if s.extended then refuse 1 (str "can only be used in a function")
    else fail (str "not in a function")
  else
    match if s.extended then splitOptions "airxAgpluntfF".toList words else .ok ([], words) with
    | .error letter => illegalOption letter
    | .ok (letters, words) =>
      if letters.contains 'F' && words.isEmpty then
        let names := Chars.sort (s.functions.map Prod.fst)
        say (names.flatMap fun name => str "declare -f " ++ name ++ ['\n'])
      else if letters.contains 'p' && words.isEmpty || words.isEmpty && !isLocal then
        listVariables s.builtin fun _ => true
      else if letters.contains 'p' then
        let mut status := 0
        for word in words do
          match s.bindings.lookup word with
          | some v => status ← say (declaration true [] word v)
          | none =>
            complain (word ++ str ": not found")
            status := 1
        return status
      else if letters.contains 'f' || letters.contains 'F' then
        let (known, unknown) := words.partition fun w => s.functions.any (·.1 == w)
        if letters.contains 'F' then
          let _ ← say (Chars.unlines known)
        return if unknown.isEmpty then 0 else 1
      else
        let mut status := 0
        for word in words do
          let (name, value) := splitAssignment word
          let (name, appends) := if name.getLast? == some '+' then (name.dropLast, true)
            else (name, false)
          let target := name
          let name := ((splitItem? name).map Prod.fst).getD name
          if !isTarget s.extended target then
            if s.extended then
              complain (str "\x60" ++ word ++ str "': not a valid identifier")
              status := 1
            else fail (target ++ str ": bad variable name")
          else if s.extended && isLocal && (s.setting? name).any Variable.readOnly then
            complain (name ++ str ": readonly variable")
            status := 1
          else
            if s.calls > 0 && !letters.contains 'g' then
              makeLocal name
              let inherits := !s.extended || appends
              if !inherits then modifySession fun s => s.dropVariable name
            if letters.contains 'n' then
              let old := ((← session).bindings.lookup name).bind Variable.value
              modifySession fun s => s.bind name { value := value.or old, reference := true }
            else
              adjust name (declared (letters.filter (· ≠ 'r')))
              match value with
              | some value =>
                let s ← session
                let old := if appends then (s.value? name).getD [] else []
                assignTarget target (old ++ value)
              | none => pure ()
              adjust name (declared letters)
        return status

/-! ## Options and arguments -/

def switchOption (name : String) (on : Bool) : Sh Unit :=
  modifySession fun s =>
    let others := s.options.filter (· ≠ name)
    { s with options := if on then name :: others else others }

/-- The names of the options in the extended dialect that have no letter. -/
def extendedOptions : List String :=
  ["pipefail", "posix", "history", "braceexpand", "hashall", "physical", "errtrace", "functrace",
    "onecmd", "keyword", "histexpand", "interactive-comments"]

/-- The further options of the extended dialect, which the command `shopt` switches, with whether
they are on at first. -/
def furtherOptions : List (String × Bool) :=
  let off := ["autocd", "assoc_expand_once", "cdable_vars", "cdspell", "checkhash", "checkjobs"]
  let level := ["compat31", "compat32", "compat40", "compat41", "compat42", "compat43", "compat44"]
  let given (on : Bool) (names : List String) := names.map fun name => (name, on)
  given false off ++ given true ["checkwinsize", "cmdhist"] ++ given false level ++
    given true ["complete_fullquote"] ++
    given false ["direxpand", "dirspell", "dotglob", "execfail", "expand_aliases", "extdebug",
      "extglob"] ++
    given true ["extquote"] ++ given false ["failglob"] ++
    given true ["force_fignore", "globasciiranges", "globskipdots"] ++
    given false ["globstar", "gnu_errfmt", "histappend", "histreedit", "histverify"] ++
    given true ["hostcomplete"] ++ given false ["huponexit", "inherit_errexit"] ++
    given true ["interactive_comments"] ++
    given false ["lastpipe", "lithist", "localvar_inherit", "localvar_unset", "login_shell",
      "mailwarn", "no_empty_cmd_completion", "nocaseglob", "nocasematch", "noexpand_translation",
      "nullglob"] ++
    given true ["patsub_replacement", "progcomp"] ++ given false ["progcomp_alias"] ++
    given true ["promptvars"] ++ given false ["restricted_shell", "shift_verbose"] ++
    given true ["sourcepath"] ++ given false ["varredir_close", "xpg_echo"]

/-- Switches a further option of the extended dialect. -/
def switchFurther (name : String) (on : Bool) : Sh Unit :=
  modifySession fun s =>
    let others := s.switches.filter (· ≠ name)
    { s with switches := if on then name :: others else others }

def optionNames (extended : Bool) : List String :=
  let plain := optionLetters.map Prod.fst
  if extended then
    let own := plain.filter fun name => !(["stdin", "interactive", "debug"].contains name)
    (own ++ extendedOptions).mergeSort fun a b => a ≤ b
  else plain

def optionOfLetter? (extended : Bool) (letter : Char) : Option String :=
  if extended && letter == 'h' then some "hashall"
  else if extended && letter == 'B' then some "braceexpand"
  else if extended && letter == 'E' then some "errtrace"
  else if extended && letter == 'T' then some "functrace"
  else (optionLetters.find? (·.2 == some letter)).map Prod.fst

def listOptions (asCommands : Bool) : Sh Nat := do
  let s ← session
  let names := optionNames s.extended
  let line (name : String) : Chars :=
    let on := s.options.contains name
    if asCommands then str "set " ++ str (if on then "-o " else "+o ") ++ name.toList ++ ['\n']
    else
      Chars.padRight (if s.extended then 15 else 16) name.toList ++
        (if s.extended then ['\t'] else []) ++ str (if on then "on\n" else "off\n")
  let title := if asCommands || s.extended then [] else str "Current option settings\n"
  say (title ++ names.flatMap line)

/-- Switches the options that the letters of a word name; `rest` are the words behind it, of which
those are returned that are still to be looked at. -/
def switchLetters (on : Bool) : Chars → List Chars → Sh (List Chars)
  | [], rest => return rest
  | 'o' :: more, rest => do
    match rest with
    | [] =>
      let _ ← listOptions (!on)
      switchLetters on more []
    | name :: rest =>
      let extended ← isExtended
      if (optionNames extended).contains (String.ofList name) then
        switchOption (String.ofList name) on
        switchLetters on more rest
      else if extended then
        complain (name ++ str ": invalid option name")
        setStatus 2
        throw .fault
      else fail (str "Illegal option -o " ++ name)
  | letter :: more, rest => do
    let extended ← isExtended
    match optionOfLetter? extended letter with
    | some name =>
      switchOption name on
      switchLetters on more rest
    | none =>
      if extended then
        complain ((if on then '-' else '+') :: letter :: str ": invalid option")
        showUsage
        setStatus 2
        throw .fault
      else fail (str "Illegal option -" ++ [letter])

/-- Sets options as words ask for it; what is left are arguments, if there are to be any. -/
def switchOptions : (fuel : Nat) → List Chars → Sh (Option (List Chars))
  | 0, _ => return none
  | _, [] => return none
  | fuel + 1, word :: rest => do
    match word with
    | ['-'] =>
      switchOption "xtrace" false
      switchOption "verbose" false
      return if rest.isEmpty then none else some rest
    | ['-', '-'] => return some rest
    | '-' :: letters => switchOptions fuel (← switchLetters true letters rest)
    | '+' :: letters =>
      if letters.isEmpty then return some (word :: rest)
      else switchOptions fuel (← switchLetters false letters rest)
    | _ => return some (word :: rest)

def setCommand (words : List Chars) : Sh Nat := do
  if words.isEmpty then
    let s ← session
    let shown := (sortedBindings s).filterMap fun (name, v) =>
      v.value.map fun value =>
        let plain := s.extended && !value.isEmpty && value.all fun c =>
          c.isAlphanum || "_-./:,+@%^".toList.contains c
        name ++ '=' :: (if plain then value else if s.extended then requoted value
          else requote value) ++ ['\n']
    say shown.flatten
  else
    match ← switchOptions (words.length + 1) words with
    | some arguments =>
      modifySession fun s => { s with arguments := arguments, optionIndex := 1, optionOffset := 0 }
    | none => pure ()
    return 0

def shiftCommand (words : List Chars) : Sh Nat := do
  let s ← session
  if s.extended then
    match words.head?.map Chars.toNat? with
    | some none =>
      complain (words.headD [] ++ str ": numeric argument required")
      return 1
    | some (some n) =>
      if s.arguments.length < n then return 1
      else
        modifySession fun s => { s with arguments := s.arguments.drop n }
        return 0
    | none =>
      if s.arguments.isEmpty then return 1
      else
        modifySession fun s => { s with arguments := s.arguments.drop 1 }
        return 0
  else
    let n ← match words with
      | [] => pure 1
      | word :: _ => numberArgument word
    if s.arguments.length < n then fail (str "can't shift that many")
    else
      modifySession fun s => { s with arguments := s.arguments.drop n, optionIndex := 1 }
      return 0

/-! ## Options of a script -/

/-- What the next option of a list of arguments is: an option with its argument and the place of
the one after it, a fault, or none. -/
inductive NextOption where
  | option (letter : Char) (argument : Option Chars) (index offset : Nat)
  | unknown (letter : Char) (index offset : Nat)
  | lacking (letter : Char) (index : Nat)
  | none (index : Nat)

def nextOption (known : Chars) (arguments : List Chars) (index offset : Nat) : NextOption :=
  match arguments[index - 1]? with
  | Option.none => .none index
  | some word =>
    let inside := 0 < offset && offset < word.length
    if !inside && (word.head? != some '-' || word.length < 2) then .none index
    else if !inside && word == str "--" then .none (index + 1)
    else
      let offset := if inside then offset else 1
      let letter := word.getD offset ' '
      let after := if offset + 1 < word.length then (index, offset + 1) else (index + 1, 0)
      let behind := (known.dropWhile (· != letter)).drop 1
      if letter == ':' || !known.contains letter then .unknown letter after.1 after.2
      else if behind.head? == some ':' then
        let rest := word.drop (offset + 1)
        if !rest.isEmpty then .option letter (some rest) (index + 1) 0
        else
          match arguments[index]? with
          | some argument => .option letter (some argument) (index + 2) 0
          | Option.none => .lacking letter (index + 1)
      else .option letter Option.none after.1 after.2

def getoptsCommand (words : List Chars) : Sh Nat := do
  let s ← session
  match words with
  | spec :: name :: given =>
    let arguments := if given.isEmpty then s.arguments else given
    let silent := spec.head? == some ':'
    let known := if silent then spec.drop 1 else spec
    let index := ((s.value? (str "OPTIND")).bind Chars.toNat?).getD 1
    let offset := if index == s.optionIndex then s.optionOffset else 0
    let moveTo (index offset : Nat) : Sh Unit := do
      modifySession fun s => { s with optionIndex := index, optionOffset := offset }
      assign (str "OPTIND") (Chars.ofNat index)
    let say (text : Chars) : Sh Unit :=
      writeError ((if s.extended then s.name ++ str ": " else []) ++ text ++ ['\n'])
    match nextOption known arguments (max index 1) offset with
    | .none index =>
      moveTo index 0
      assign name ['?']
      unset (str "OPTARG")
      return 1
    | .option letter argument index offset =>
      moveTo index offset
      match argument with
      | some argument => assign (str "OPTARG") argument
      | none => unset (str "OPTARG")
      assign name [letter]
      return 0
    | .unknown letter index offset =>
      moveTo index offset
      if silent then assign (str "OPTARG") [letter]
      else
        unset (str "OPTARG")
        say (if s.extended then str "illegal option -- " ++ [letter]
          else str "Illegal option -" ++ [letter])
      assign name ['?']
      return 0
    | .lacking letter index =>
      moveTo index 0
      if silent then
        assign (str "OPTARG") [letter]
        assign name [':']
      else
        unset (str "OPTARG")
        say (if s.extended then str "option requires an argument -- " ++ [letter]
          else str "No arg for -" ++ [letter] ++ str " option")
        assign name ['?']
      return 0
  | _ =>
    if s.extended then
      writeError (str "getopts: usage: getopts optstring name [arg ...]\n")
      return 2
    else fail (str "Usage: getopts optstring var [arg...]")

/-! ## Reading a line -/

structure LineReading where
  raw : Bool := false
  mark : Char := '\n'
  most : Option Nat := none
  exact : Bool := false
  stream : Nat := 0

def readAtMost (p : Process) (stream : Nat) (mark : Char) (most : Nat) :
    Act (Except FileFault Chars) := do
  match ← p.peek stream most with
  | .error fault => return .error fault
  | .ok text =>
    let front := text.take most
    let line := front.takeWhile (· != mark)
    let count := min (line.length + 1) front.length
    if count < most && line.length = front.length then p.awaitEnd stream
    p.take stream count
    return .ok (front.take count)

/-- The characters up to the mark, of which those behind a backslash are quoted, and whether the
mark was found.  `fuel` bounds the lines that are joined. -/
def readMarked (r : LineReading) : (fuel : Nat) → Sh (List Marked × Bool)
  | 0 => return ([], false)
  | fuel + 1 => do
    let p := (← session).process []
    let read : Act (Except FileFault Chars) := match r.most with
      | none => p.readTo r.stream r.mark
      | some n => if r.exact then p.readSome r.stream n else readAtMost p r.stream r.mark n
    match ← lift (.error .badDescriptor) read with
    | .error _ => return ([], false)
    | .ok text =>
      let ended := text.getLast? == some r.mark && !r.exact
      let line := if ended then text.dropLast else text
      let line := line.filter (· != '\x00')
      if r.raw then return (line.map fun c => (false, c), ended || r.most == some text.length)
      else
        let (marked, continues) := escapes line
        if continues && ended then
          let (more, ended) ← readMarked r fuel
          return (marked ++ more, ended)
        else return (marked, ended || r.most == some text.length)
where
  /-- The characters with those behind a backslash marked, and whether one stands at the end. -/
  escapes : Chars → List Marked × Bool
    | [] => ([], false)
    | ['\\'] => ([], true)
    | '\\' :: c :: rest =>
      let (marked, continues) := escapes rest
      ((true, c) :: marked, continues)
    | c :: rest =>
      let (marked, continues) := escapes rest
      ((false, c) :: marked, continues)

def separates (ifs : Chars) (m : Marked) : Bool :=
  !m.1 && ifs.contains m.2

def isBlankSeparator (ifs : Chars) (m : Marked) : Bool :=
  separates ifs m && (m.2 == ' ' || m.2 == '\t' || m.2 == '\n')

def dropSeparator (ifs : Chars) (text : List Marked) : List Marked :=
  match text.dropWhile (isBlankSeparator ifs) with
  | m :: rest =>
    if separates ifs m then rest.dropWhile (isBlankSeparator ifs) else m :: rest
  | [] => []

/-- The values of so many variables: a field for each but the last, which gets what is left. -/
def lineValues (ifs : Chars) : (count : Nat) → List Marked → List Chars
  | 0, _ => []
  | 1, text =>
    let trimmed := (text.reverse.dropWhile (isBlankSeparator ifs)).reverse
    let field := trimmed.takeWhile fun m => !separates ifs m
    let rest := trimmed.drop field.length
    let only := !rest.isEmpty && (dropSeparator ifs rest).isEmpty
    [(if only then field else trimmed).map Prod.snd]
  | n + 2, text =>
    let field := text.takeWhile fun m => !separates ifs m
    field.map Prod.snd :: lineValues ifs (n + 1) (dropSeparator ifs (text.drop field.length))

def lineFields (ifs : Chars) : (fuel : Nat) → List Marked → List Chars
  | 0, _ => []
  | _, [] => []
  | fuel + 1, text =>
    let field := text.takeWhile fun m => !separates ifs m
    field.map Prod.snd :: lineFields ifs fuel (dropSeparator ifs (text.drop field.length))

def readOptions : (fuel : Nat) → LineReading → Option Chars → List Chars →
    Sh (Except Nat (LineReading × Option Chars × List Chars))
  | 0, r, array, words => return .ok (r, array, words)
  | fuel + 1, r, array, words => do
    let extended ← isExtended
    match words with
    | ['-', '-'] :: rest => return .ok (r, array, rest)
    | ('-' :: letter :: more) :: rest =>
      let again := if more.isEmpty then rest else ('-' :: more) :: rest
      if letter == 'r' then readOptions fuel { r with raw := true } array again
      else if extended && letter == 's' then readOptions fuel r array again
      else if letter == 'p' || (extended && "adnNtuie".toList.contains letter) then
        let (argument, rest) := if more.isEmpty then (rest.headD [], rest.drop 1) else (more, rest)
        let array := if letter == 'a' then some argument else array
        let r := match letter with
          | 'd' => { r with mark := argument.headD '\x00' }
          | 'n' => { r with most := Chars.toNat? argument }
          | 'N' => { r with most := Chars.toNat? argument, exact := true }
          | 'u' => { r with stream := (Chars.toNat? argument).getD 0 }
          | _ => r
        readOptions fuel r array rest
      else return .error (← illegalOption letter)
    | words => return .ok (r, array, words)

def readSteps : Nat := 40

def readCommand (words : List Chars) : Sh Nat := do
  match ← readOptions (words.flatten.length + words.length + 1) {} none words with
  | .error status => return status
  | .ok (r, array, names) =>
    let s ← session
    if names.isEmpty && array.isNone && !s.extended then fail (str "arg count")
    else
      let wrong := (array.toList.filter fun name => !Chars.isName name).head?.or
        (names.find? fun name => !isTarget s.extended name)
      match wrong with
      | some name =>
        refuse 1 (if s.extended then str "\x60" ++ name ++ str "': not a valid identifier"
          else name ++ str ": bad variable name")
      | none =>
        spend readSteps
        let (text, ended) ← readMarked r 100000
        let ifs := s.separators
        let trimmed := text.dropWhile (isBlankSeparator ifs)
        match array, names with
        | some name, _ =>
          let fields := lineFields ifs (text.length + 1) trimmed
          adjust name fun v => { v with
            value := none
            items := some (.ofTexts fields) }
        | none, [] => assign (str "REPLY") (text.map Prod.snd)
        | none, names =>
          for (name, value) in names.zip (lineValues ifs names.length trimmed) do
            assignTarget name value
        return if ended then 0 else 1

/-- How lines are read into an array: with their marks or without, how many are left out and how many
are taken at most, and the number of the first item, if the others stay. -/
structure ArrayReading where
  trims : Bool := false
  mark : Char := '\n'
  skipped : Nat := 0
  most : Option Nat := none
  origin : Option Nat := none
  stream : Nat := 0

def arrayOptions : (fuel : Nat) → ArrayReading → List Chars →
    Sh (Except Nat (ArrayReading × List Chars))
  | 0, r, words => return .ok (r, words)
  | fuel + 1, r, words => do
    match words with
    | ['-', '-'] :: rest => return .ok (r, rest)
    | ('-' :: letter :: more) :: rest =>
      if letter == 't' then
        arrayOptions fuel { r with trims := true } (if more.isEmpty then rest else ('-' :: more) :: rest)
      else if "dnOsuCc".toList.contains letter then
        let (argument, rest) := if more.isEmpty then (rest.headD [], rest.drop 1) else (more, rest)
        let number := Chars.toNat? argument
        let r := match letter with
          | 'd' => { r with mark := argument.headD '\x00' }
          | 'n' => { r with most := number.filter (0 < ·) }
          | 's' => { r with skipped := number.getD 0 }
          | 'O' => { r with origin := number }
          | 'u' => { r with stream := number.getD 0 }
          | _ => r
        arrayOptions fuel r rest
      else return .error (← illegalOption letter)
    | words => return .ok (r, words)

def mapfileCommand (words : List Chars) : Sh Nat := do
  match ← arrayOptions (words.flatten.length + words.length + 1) {} words with
  | .error status => return status
  | .ok (r, words) =>
    let p := (← session).process []
    match ← lift (.error .badDescriptor) (p.readAll r.stream) with
    | .error _ => return 1
    | .ok text =>
      let lines := (Chars.pieces r.mark text).drop r.skipped
      let lines := r.most.elim lines lines.take
      let lines := if !r.trims then lines else lines.map fun line =>
        if line.getLast? == some r.mark then line.dropLast else line
      let name := words.headD (str "MAPFILE")
      let old : Items ← if r.origin.isSome then itemsOf name else pure {}
      let new := Items.numbered lines (r.origin.getD 0)
      adjust name fun v => { v with value := none, items := some (old.insertAll new) }
      return 0

def letCommand (words : List Chars) : Sh Nat := do
  let mut last : Int := 0
  for word in words do
    last ← arithmetic word
  return if last = 0 then 1 else 0

end ProductLine.Shell.Sh
