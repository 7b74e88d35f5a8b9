/- # Tools that run other programs — with another environment, for a time, or many times

They get as an argument how a program is started.  What they report of the
program is their status.
-/
import ProductLine.Shell.Running
import ProductLine.Shell.Tool.Listing

namespace ProductLine.Shell.Tool

abbrev Start := Program → Process → Act Unit

def missingStatus (fault : FileFault) : Nat :=
  if fault == .notFound || fault == .notADirectory then 127 else 126

/-- Lets a program take the place of the process; `complaint` is about one that cannot be. -/
def takeOver (start : Start) (p : Process) (complaint : FileFault → Chars) : Act Unit := do
  match ← p.find with
  | .ok (program, words) => start program { p with words := words }
  | .error fault => p.complain (complaint fault) *> throw (.exited (missingStatus fault))

/-! ## Time -/

/-- The time in millionths of a second that an argument spells. -/
def interval? (text : Chars) : Option (Option Nat) :=
  let number := text.takeWhile fun c => c.isDigit || c == '.'
  let factor := match text.drop number.length with
    | [] | ['s'] => some 1
    | ['m'] => some 60
    | ['h'] => some 3600
    | ['d'] => some 86400
    | _ => none
  if text == str "infinity" || text == str "inf" then some none
  else
    match Quantity.read 64 number, factor with
    | some (.finite _ num den, []), some factor =>
      some (some ((num * factor * 1000000 + den - 1) / den))
    | _, _ => none

def sleep : Tool := fun p => do
  let words := if p.arguments.head? == some (str "--") then p.arguments.drop 1 else p.arguments
  if words.isEmpty then p.failWithHint 1 (str "missing operand")
  for word in words do
    match word with
    | '-' :: c :: _ =>
      if !c.isDigit then p.failWithHint 1 (str "invalid option -- '" ++ [c, '\''])
    | _ => pure ()
  let wrong := words.filter fun word => (interval? word).isNone
  if !wrong.isEmpty then
    for word in wrong.dropLast do p.warn (str "invalid time interval " ++ Chars.quoted word)
    p.failWithHint 1 (str "invalid time interval " ++ Chars.quoted (wrong.getLastD []))
  for word in words do
    match interval? word with
    | some (some micros) => Machine.pass micros
    | _ => Machine.pass ((← get).deadline + 1)

def signalNamed? (text : Chars) : Option Nat := Sh.signalOf? true text

/-- Runs an action for no longer than a time; nothing comes back if it is stopped. -/
def within (limit : Nat) (action : Act Ending) : Act (Option Ending) := do
  let before ← get
  let stop := before.micros + limit
  if limit = 0 || before.deadline ≤ stop then return some (← action)
  else
    let (result, after) := action.run.run { before with deadline := stop }
    set { after with deadline := before.deadline }
    match result with
    | .ok ending => return some ending
    | .error (.endless _) =>
      modify fun m => { m with micros := stop }
      return none
    | .error other => throw other

def timeout (start : Start) : Tool := fun p => do
  let (given, words) ← p.options
    { OptionTable.ofLetters "v" "sk" [("signal", 's', .argument), ("kill-after", 'k', .argument),
        ("preserve-status", 'P', .nothing), ("foreground", 'F', .nothing),
        ("verbose", 'v', .nothing)] 125 with inOrder := true }
  match words with
  | [] | [_] => p.failWithHint 125 (str "missing operand")
  | limit :: command =>
    let signal ← match Given.last? given 's' with
      | none => pure 15
      | some name =>
        match signalNamed? name with
        | some n => pure n
        | none => p.failWithHint 125 (Chars.quoted name ++ str ": invalid signal")
    match interval? limit with
    | none => p.failWithHint 125 (str "invalid time interval " ++ Chars.quoted limit)
    | some limit =>
      let own := { p with words := command }
      match ← own.find with
      | .error fault =>
        p.warn (str "failed to run command " ++ Chars.quoted (command.headD []) ++ str ": " ++
          Process.reason fault)
        throw (.exited (missingStatus fault))
      | .ok _ =>
        let ended : Act Ending := do
          match ← own.launch start with
          | .ok ending => return ending
          | .error _ => return .exited 127
        match ← within (limit.getD 0) ended with
        | some ending => throw ending
        | none =>
          if signal = 9 then throw (.signaled signal)
          else if Given.has given 'P' then throw (.exited (128 + signal))
          else throw (.exited 124)

/-! ## Environments -/

/-- Settings of variables in front of a command, and the command. -/
def splitSettings : List Chars → List (Chars × Chars) × List Chars
  | [] => ([], [])
  | word :: rest =>
    let name := word.takeWhile (· != '=')
    if name.length < word.length then
      let (settings, command) := splitSettings rest
      ((name, word.drop (name.length + 1)) :: settings, command)
    else ([], word :: rest)

def setIn (environment : List (Chars × Chars)) (setting : Chars × Chars) : List (Chars × Chars) :=
  if environment.any (·.1 == setting.1) then
    environment.map fun entry => if entry.1 == setting.1 then setting else entry
  else environment ++ [setting]

def env (start : Start) : Tool := fun p => do
  let (given, words) ← p.options
    { OptionTable.ofLetters "i0v" "uCS" [("ignore-environment", 'i', .nothing),
        ("unset", 'u', .argument), ("null", '0', .nothing), ("chdir", 'C', .argument),
        ("split-string", 'S', .argument)] 125 with inOrder := true }
  let split := ((Given.last? given 'S').map Chars.words).getD []
  let (isBare, words) := match split ++ words with
    | ['-'] :: rest => (true, rest)
    | words => (false, words)
  let (settings, command) := splitSettings words
  let base := if isBare || Given.has given 'i' then [] else p.environment
  let kept := base.filter fun entry => !(Given.all given 'u').contains entry.1
  let environment := settings.foldl setIn kept
  let directory ← match Given.last? given 'C' with
    | none => pure p.directory
    | some path =>
      match ← p.node path with
      | .ok (place, .directory) => pure place
      | .ok _ =>
        p.fail 125 (str "cannot change directory to " ++ Chars.quoted path ++
          str ": Not a directory")
      | .error fault =>
        p.fail 125 (str "cannot change directory to " ++ Chars.quoted path ++ str ": " ++
          Process.reason fault)
  match command with
  | [] =>
    let mark := if Given.has given '0' then '\x00' else '\n'
    p.print (environment.flatMap fun (name, value) => name ++ '=' :: value ++ [mark])
  | name :: _ =>
    let complaint (fault : FileFault) : Chars :=
      p.name ++ str ": " ++ Chars.quoted name ++ str ": " ++ Process.reason fault ++ ['\n']
    let own := { p with environment := environment, words := command, directory := directory }
    takeOver start own complaint

/-- A program that only runs another one, such as `nice`. -/
def wrapper (plain withArgument : String) (long : List (String × Char × Takes)) (start : Start) :
    Tool := fun p => do
  let (_, words) ← p.options
    { OptionTable.ofLetters plain withArgument long 125 with inOrder := true }
  match words with
  | [] => p.failWithHint 125 (str "missing operand")
  | name :: _ =>
    let complaint (fault : FileFault) : Chars :=
      p.name ++ str ": " ++ Chars.quoted name ++ str ": " ++ Process.reason fault ++ ['\n']
    takeOver start { p with words := words } complaint

/-- The program `nice`; without a command, it prints how nice it is. -/
def nice (start : Start) : Tool := fun p => do
  if p.arguments.isEmpty then p.print (str "0\n")
  else wrapper "" "n" [("adjustment", 'n', .argument)] start p

/-! ## Many times -/

/-- How `xargs` makes commands. -/
structure Batching where
  most : Option Nat := none
  mostLines : Option Nat := none
  replaced : Option Chars := none
  mark : Option Char := none
  skipsEmpty : Bool := false
  traces : Bool := false
  stop : Option Chars := none

/-- The words of an input with quotation, line by line.  `fuel` bounds the characters. -/
def quotedWords : (fuel : Nat) → (present : Option Chars) → (line : List Chars) → Chars →
    Except String (List (List Chars))
  | 0, _, _, _ => .ok []
  | fuel + 1, present, line, text =>
    let line' := match present with
      | some word => line ++ [word.reverse]
      | none => line
    match text with
    | [] => .ok (if line'.isEmpty then [] else [line'])
    | '\n' :: rest =>
      (quotedWords fuel none [] rest).map fun more =>
        if line'.isEmpty then more else line' :: more
    | c :: rest =>
      if c == ' ' || c == '\t' then quotedWords fuel none line' rest
      else if c == '\\' then
        match rest with
        | d :: rest => quotedWords fuel (some (d :: present.getD [])) line rest
        | [] => quotedWords fuel present line []
      else if c == '\'' || c == '"' then
        let inside := rest.takeWhile fun d => d != c && d != '\n'
        if (rest.drop inside.length).head? == some c then
          quotedWords fuel (some (inside.reverse ++ present.getD [])) line
            (rest.drop (inside.length + 1))
        else
          .error ("unmatched " ++ (if c == '"' then "double" else "single") ++
            " quote; by default quotes are special to xargs unless you use the -0 option")
      else quotedWords fuel (some (c :: present.getD [])) line rest

/-- A list in parts of so many items.  `fuel` bounds the parts. -/
def chunks {α : Type} (n : Nat) : (fuel : Nat) → List α → List (List α)
  | 0, _ => []
  | _, [] => []
  | fuel + 1, items => items.take n :: chunks n fuel (items.drop n)

/-- A text with each occurrence of another one replaced.  `fuel` bounds the text. -/
def replaceText (old new : Chars) : (fuel : Nat) → Chars → Chars
  | 0, text => text
  | _, [] => []
  | fuel + 1, c :: rest =>
    if Chars.startsWith (c :: rest) old && !old.isEmpty then
      new ++ replaceText old new fuel ((c :: rest).drop old.length)
    else c :: replaceText old new fuel rest

/-- The commands that `xargs` runs for the words of an input, line by line. -/
def Batching.commands (b : Batching) (command : List Chars) (lines : List (List Chars)) :
    List (List Chars) :=
  match b.replaced with
  | some mark =>
    lines.map fun line =>
      let text := [' '].intercalate line
      command.map fun word => replaceText mark text (word.length + 1) word
  | none =>
    let words := lines.flatten
    let batches := match b.mostLines, b.most with
      | some n, _ => (chunks (max n 1) (lines.length + 1) lines).map List.flatten
      | none, some n => chunks (max n 1) (words.length + 1) words
      | none, none => if words.isEmpty then [] else [words]
    let batches := if batches.isEmpty && !b.skipsEmpty then [[]] else batches
    batches.map (command ++ ·)

/-- Runs commands one after the other until one says that this is enough. -/
def runBatches (start : Start) (p : Process) (traces : Bool) :
    List (List Chars) → (status : Nat) → Act Unit
  | [], status => Process.done status
  | words :: rest, status => do
    Machine.spend Machine.processSteps
    if traces then p.complain ([' '].intercalate words ++ ['\n'])
    let name := words.headD []
    match ← { p with words := words }.launch start with
    | .error fault =>
      p.warn (name ++ str ": " ++ Process.reason fault)
      throw (.exited (missingStatus fault))
    | .ok (.exited 0) => runBatches start p traces rest status
    | .ok (.exited 255) =>
      p.warn (name ++ str ": exited with status 255; aborting")
      throw (.exited 124)
    | .ok (.signaled signal) =>
      p.warn (name ++ str ": terminated by signal " ++ Chars.ofNat signal)
      throw (.exited 125)
    | .ok _ => runBatches start p traces rest 123

def xargs (start : Start) : Tool := fun p => do
  let (given, words) ← p.options
    { OptionTable.ofLetters "0rtxp" "nILdPsEa" [("null", '0', .nothing),
        ("no-run-if-empty", 'r', .nothing), ("verbose", 't', .nothing),
        ("max-args", 'n', .argument), ("max-lines", 'L', .argument),
        ("replace", 'I', .argument), ("delimiter", 'd', .argument),
        ("max-procs", 'P', .argument), ("arg-file", 'a', .argument)] 1 with inOrder := true }
  let number (letter : Char) : Act (Option Nat) := do
    match Given.last? given letter with
    | none => return none
    | some text =>
      match Chars.toNat? text with
      | some 0 =>
        p.failWithHint 1 (str "value 0 for -" ++ [letter] ++ str " option should be >= 1")
      | some n => return some n
      | none =>
        p.failWithHint 1 (str "invalid number \"" ++ text ++ str "\" for -" ++ [letter] ++
          str " option")
  let most ← number 'n'
  let mostLines ← number 'L'
  let escapes : Escapes := { zeroOctal := true, plainOctal := true, hex := true }
  let b : Batching :=
    { most := most, mostLines := mostLines, replaced := Given.last? given 'I'
      mark := if Given.has given '0' then some '\x00'
        else ((Given.last? given 'd').map fun text => (escapes.apply text).1).bind List.head?
      skipsEmpty := Given.has given 'r', traces := Given.has given 't'
      stop := Given.last? given 'E' }
  let source := (Given.last? given 'a').getD ['-']
  match ← p.readInput source with
  | .error fault =>
    p.fail 1 (str "Cannot open input file " ++ Chars.quoted source ++ str ": " ++
      Process.reason fault)
  | .ok text =>
    p.awaitInputs [source]
    let lines : Except String (List (List Chars)) := match b.mark, b.replaced with
      | some mark, _ =>
        let parts := text.splitOn mark
        let parts := if parts.getLast? == some [] then parts.dropLast else parts
        .ok (parts.map fun part => [part])
      | none, some _ =>
        .ok (((Chars.lines text).map fun line => line.dropWhile fun c => c == ' ' || c == '\t')
          |>.filter (!·.isEmpty) |>.map fun line => [line])
      | none, none => quotedWords (text.length + 1) none [] text
    match lines with
    | .error complaint => p.fail 1 complaint.toList
    | .ok lines =>
      let lines := match b.stop with
        | some word => if lines.flatten.contains word then
            [lines.flatten.takeWhile (· != word)] else lines
        | none => lines
      let command := if words.isEmpty then [str "echo"] else words
      let none' ← Machine.addOpening
        { target := .nowhere, readable := true, writable := false }
      runBatches start (p.withStream 0 none') b.traces (b.commands command lines) 0

/-! ## Finding -/

/-- A test or an action of `find`. -/
inductive Finding where
  | always (value : Bool)
  | name (whole foldsCase : Bool) (pattern : Glob)
  | kind (letter : Char)
  | empty
  | size (order : Ordering) (units unit : Nat)
  | runnable
  | print (mark : Char)
  | remove
  | prune
  | run (words : List Chars)
  | collect (words : List Chars)
  | not (f : Finding)
  | and (a b : Finding)
  | or (a b : Finding)

/-- Something is done, so names are not printed by themselves. -/
def Finding.acts : Finding → Bool
  | .print _ | .remove | .run _ | .collect _ => true
  | .not f => f.acts
  | .and a b | .or a b => a.acts || b.acts
  | _ => false

abbrev ReadFinding := StateT (List Chars) (Except Chars)

def findArgument (name : Chars) : ReadFinding Chars := do
  match ← get with
  | word :: rest =>
    set rest
    return word
  | [] => throw (str "missing argument to \x60" ++ name ++ str "'")

def findCommand (name : Chars) : ReadFinding (List Chars × Bool) := do
  let words ← get
  let front := words.takeWhile fun w => w != [';'] && w != ['+']
  match words.drop front.length with
  | [] => throw (str "missing argument to \x60" ++ name ++ str "'")
  | last :: rest =>
    set rest
    return (front, last == ['+'])

/-- A test, an action, or an expression in parentheses. -/
def findPrimary (inner : ReadFinding Finding) : (fuel : Nat) → ReadFinding Finding
  | 0 => throw []
  | fuel + 1 => do
    match ← get with
    | [] => throw (str "expected an expression after '!'")
    | word :: rest =>
      set rest
      match String.ofList word with
      | "(" =>
        let f ← inner
        match ← get with
        | [')'] :: rest =>
          set rest
          return f
        | _ => throw (str "invalid expression; I was expecting to find a ')' somewhere but " ++
            str "did not see one.")
      | "!" | "-not" => return .not (← findPrimary inner fuel)
      | "-name" => return .name false false (Glob.ofText (← findArgument word))
      | "-iname" =>
        return .name false true (Glob.ofText ((← findArgument word).map Char.toLower))
      | "-path" | "-wholename" => return .name true false (Glob.ofText (← findArgument word))
      | "-type" =>
        match ← findArgument word with
        | [c] => return .kind c
        | text => throw (str "Unknown argument to -type: " ++ text)
      | "-empty" => return .empty
      | "-size" =>
        let text ← findArgument word
        let order := match text.head? with
          | some '+' => Ordering.gt
          | some '-' => .lt
          | _ => .eq
        let body := text.dropWhile fun c => c == '+' || c == '-'
        let digits := body.takeWhile Char.isDigit
        let unit := match body.drop digits.length with
          | ['c'] => 1
          | ['k'] => 1024
          | ['M'] => 1048576
          | ['w'] => 2
          | _ => 512
        return .size order (Chars.digitsValue digits) unit
      | "-executable" => return .runnable
      | "-print" => return .print '\n'
      | "-print0" => return .print '\x00'
      | "-delete" => return .remove
      | "-prune" => return .prune
      | "-true" => return .always true
      | "-false" => return .always false
      | "-exec" | "-ok" =>
        let (words, isMany) ← findCommand word
        return if isMany then .collect words else .run words
      | _ =>
        if word.head? == some '-' then throw (str "unknown predicate \x60" ++ word ++ ['\''])
        else
          throw (str "paths must precede expression: \x60" ++ word ++ ['\''])

/-- Expressions that all have to hold.  `fuel` bounds them. -/
def findAll (inner : ReadFinding Finding) : (fuel : Nat) → Finding → ReadFinding Finding
  | 0, f => return f
  | fuel + 1, f => do
    match ← get with
    | [] => return f
    | word :: rest =>
      match String.ofList word with
      | ")" | "-o" | "-or" | "," => return f
      | "-a" | "-and" =>
        set rest
        findAll inner fuel (.and f (← findPrimary inner 100))
      | _ => findAll inner fuel (.and f (← findPrimary inner 100))

def findExpression : (fuel : Nat) → ReadFinding Finding
  | 0 => throw []
  | fuel + 1 => do
    let inner := findExpression fuel
    let first ← findPrimary inner 100
    let all ← findAll inner 1000 first
    match ← get with
    | word :: rest =>
      if word == str "-o" || word == str "-or" then
        set rest
        return .or all (← inner)
      else return all
    | [] => return all

/-- The paths that were collected for commands, by the words of the command. -/
abbrev Collected := List (List Chars × List Chars)

/-- What a look at a path amounts to: whether the expression holds, whether what is below it is left
out, whether all went well, and what was collected. -/
structure Look where
  holds : Bool
  pruned : Bool := false
  ok : Bool := true
  collected : Collected := []

def Finding.look (start : Start) (p : Process) (path : Chars) (place : Location) :
    Finding → Act Look
  | .always value => return { holds := value }
  | .name whole foldsCase pattern =>
    let text := if whole then path else lastStep path
    return { holds := pattern.matches (if foldsCase then text.map Char.toLower else text) }
  | .kind letter => do
    let node := (← get).files.node? place
    return { holds := node.any fun node => kindLetter node == (if letter == 'f' then '-'
      else letter) }
  | .empty => do
    let files := (← get).files
    return { holds := match files.node? place with
      | some (.file number) => files.size number = 0
      | some .directory => (files.namesIn place).isEmpty
      | _ => false }
  | .size order units unit => do
    let files := (← get).files
    let size := ((files.node? place).map (nodeSize files)).getD 0
    return { holds := compare ((size + unit - 1) / unit) units == order }
  | .runnable => do
    let files := (← get).files
    return { holds := match files.node? place with
      | some (.file number) => files.isRunnable number
      | some .directory | some (.link _) => true
      | _ => false }
  | .print mark => do
    p.print (path ++ [mark])
    return { holds := true }
  | .remove => do
    match ← Machine.changing fun files =>
        if files.node? place == some .directory then files.removeDirectory place
        else files.removeFile place with
    | .ok () => return { holds := true }
    | .error fault =>
      p.warn (str "cannot delete " ++ Chars.quoted path ++ str ": " ++ Process.reason fault)
      return { holds := false, ok := false }
  | .prune => return { holds := true, pruned := true }
  | .run words => do
    let words := words.map fun w => replaceText (str "\x7b\x7d") path (w.length + 1) w
    match ← { p with words := words }.launch start with
    | .ok ending => return { holds := ending == .exited 0 }
    | .error fault =>
      p.warn (Chars.quoted (words.headD []) ++ str ": " ++ Process.reason fault)
      return { holds := false }
  | .collect words => return { holds := true, collected := [(words, [path])] }
  | .not f => do
    let look ← f.look start p path place
    return { look with holds := !look.holds }
  | .and a b => do
    let first ← a.look start p path place
    if first.holds then
      let second ← b.look start p path place
      return { holds := second.holds, pruned := first.pruned || second.pruned
               ok := first.ok && second.ok, collected := first.collected ++ second.collected }
    else return first
  | .or a b => do
    let first ← a.look start p path place
    if first.holds then return first
    else
      let second ← b.look start p path place
      return { holds := second.holds, pruned := first.pruned || second.pruned
               ok := first.ok && second.ok, collected := first.collected ++ second.collected }

/-- How deep `find` looks, and whether it looks at directories after what is in them. -/
structure Walk where
  least : Nat := 0
  most : Nat := 200
  insideFirst : Bool := false

/-- The steps that it takes to look at a file or directory. -/
def visitSteps : Nat := 300

/-- Looks at a path and what is below it.  `fuel` bounds the depth. -/
def walk (start : Start) (p : Process) (w : Walk) (f : Finding) :
    (fuel : Nat) → (depth : Nat) → Chars → Location → Act Look
  | 0, _, _, _ => return { holds := true }
  | fuel + 1, depth, path, place => do
    Machine.spend visitSteps
    let own : Act Look := if w.least ≤ depth then f.look start p path place
      else return { holds := true }
    let inside : Act Look := do
      if depth < w.most && (← get).files.node? place == some .directory then
        (← entriesOf place).foldlM (fun sofar name => do
          let look ← walk start p w f fuel (depth + 1) (below path name)
            (place ++ [Chars.toName name])
          return { sofar with
            ok := sofar.ok && look.ok, collected := sofar.collected ++ look.collected })
          { holds := true }
      else return { holds := true }
    let first ← if w.insideFirst then inside else own
    let second ← if w.insideFirst then own
      else if first.pruned then pure { holds := true } else inside
    return { holds := true, ok := first.ok && second.ok
             collected := first.collected ++ second.collected }

def findOptions : List Chars → Walk → Walk × List Chars
  | [], w => (w, [])
  | word :: rest, w =>
    let number := (rest.head?.bind Chars.toNat?).getD 0
    if word == str "-maxdepth" then findOptions (rest.drop 1) { w with most := number }
    else if word == str "-mindepth" then findOptions (rest.drop 1) { w with least := number }
    else if word == str "-depth" then findOptions rest { w with insideFirst := true }
    else
      let w := if word == str "-delete" then { w with insideFirst := true } else w
      let (w, others) := findOptions rest w
      (w, word :: others)
termination_by words => words.length
decreasing_by all_goals simp; try omega

def find (start : Start) : Tool := fun p => do
  let isPath (word : Chars) : Bool :=
    !(word.head? == some '-' && 1 < word.length) && word != ['('] && word != ['!']
  let paths := p.arguments.takeWhile isPath
  let (w, words) := findOptions (p.arguments.drop paths.length) {}
  let paths := if paths.isEmpty then [['.']] else paths
  let expression : Except Chars (Finding × List Chars) :=
    if words.isEmpty then .ok (.always true, []) else (findExpression 50).run words
  match expression with
  | .error complaint => p.fail 1 complaint
  | .ok (_, extra :: _) =>
    p.fail 1 (str "paths must precede expression: \x60" ++ extra ++ ['\''])
  | .ok (f, []) =>
    let f := if f.acts then f else .and f (.print '\n')
    let mut ok := true
    let mut collected : Collected := []
    for path in paths do
      match ← p.entry path with
      | .error fault =>
        p.warn (Chars.quoted path ++ str ": " ++ Process.reason fault)
        ok := false
      | .ok (place, _) =>
        let look ← walk start p w f maxDepth 0 path place
        ok := ok && look.ok
        collected := collected ++ look.collected
    for words in (collected.map Prod.fst).eraseDups do
      let found := (collected.filter (·.1 == words)).flatMap Prod.snd
      let front := words.filter (· != str "\x7b\x7d")
      match ← { p with words := front ++ found }.launch start with
      | .ok (.exited 0) => pure ()
      | .ok _ => ok := false
      | .error fault =>
        p.warn (Chars.quoted (words.headD []) ++ str ": " ++ Process.reason fault)
        ok := false
    Process.done (if ok then 0 else 1)

end ProductLine.Shell.Tool
