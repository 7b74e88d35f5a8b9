/- # Layout — the lines of a command that is written anew

The extended dialect keeps the commands of a substitution by what they are,
and numbers their lines as if they had been written out again: a compound
command has its keywords on lines of their own, and neither blank lines nor
comments are left.  `Command.laidOut` gives every command the line that it
then has; the pen says where the writing stands.
-/
import ProductLine.Shell.Script

namespace ProductLine.Shell

/-- Where the writing of a command stands: in which line, how many lines of documents wait for the
end of that line, and whether it is the body of a function. -/
structure Pen where
  line : Nat
  waiting : Nat := 0
  inFunction : Bool := false

namespace Pen

def feed (p : Pen) (count : Nat) : Pen := { p with line := p.line + count }

def settled (p : Pen) : Pen := { p with line := p.line + p.waiting, waiting := 0 }

/-- The pen after what separates two commands, which may be a line feed.  In the body of a function
every command has a line of its own. -/
def between (p : Pen) (apart : Bool) : Pen :=
  let ended := p.settled.feed (if apart then 1 else 0)
  if p.inFunction then ended.feed 1 else ended

/-- The pen after a document whose body has so many line feeds. -/
def document (p : Pen) (feeds : Nat) : Pen :=
  { p with waiting := (if p.waiting = 0 then 1 else p.waiting) + feeds + 1 }

end Pen

mutual

def Piece.feeds (height : Nat → Nat) : Piece → Nat
  | .text _ s => s.count '\n'
  | .output _ false (some body) => (body.laidOut height { line := 0 }).2.line
  | .process _ (some body) => (body.laidOut height { line := 0 }).2.line
  | .arithmetic _ body => feedsOf height body
  | _ => 0

def feedsOf (height : Nat → Nat) : List Piece → Nat
  | [] => 0
  | piece :: rest => piece.feeds height + feedsOf height rest

def feedsOfAll (height : Nat → Nat) : List (List Piece) → Nat
  | [] => 0
  | w :: rest => feedsOf height w + feedsOfAll height rest

def feedsOfItems (height : Nat → Nat) : List (Option (List Piece) × List Piece) → Nat
  | [] => 0
  | (_, w) :: rest => feedsOf height w + feedsOfItems height rest

def Assignment.feeds (height : Nat → Nat) : Assignment → Nat
  | .scalar _ _ _ value => feedsOf height value
  | .array _ _ items => feedsOfItems height items

def feedsOfAssignments (height : Nat → Nat) : List Assignment → Nat
  | [] => 0
  | a :: rest => a.feeds height + feedsOfAssignments height rest

def Redirection.written (height : Nat → Nat) (p : Pen) : Redirection → Pen
  | .file _ _ target | .duplicate _ target | .string _ target | .outputAndErrors _ target =>
    p.feed (feedsOf height target)
  | .document _ number => p.document (height number)
  | .named _ r => r.written height p

def writtenAll (height : Nat → Nat) (p : Pen) : List Redirection → Pen
  | [] => p
  | r :: rest => writtenAll height (r.written height p) rest

/-- The command with the lines that it has when it is written with a pen, and the pen after it.  A
simple command counts as being in the line of its second word. -/
def Command.laidOut (height : Nat → Nat) (p : Pen) : Command → Command × Pen
  | .simple _ assignments words redirections =>
    let line := match assignments, words with
      | a :: _, _ => p.line + a.feeds height
      | [], first :: second :: _ => p.line + feedsOf height first + feedsOf height second
      | [], [only] => p.line + feedsOf height only
      | [], [] => p.line
    let after := p.feed (feedsOfAssignments height assignments + feedsOfAll height words)
    (.simple line assignments words redirections, writtenAll height after redirections)
  | .pipeline commands =>
    let (commands, p) := laidOutAll height p commands
    (.pipeline commands, p)
  | .inverted body =>
    let (body, p) := body.laidOut height p
    (.inverted body, p)
  | .background body =>
    let (body, p) := body.laidOut height p
    (.background body, p)
  | .subshell _ body =>
    let (body, after) := body.laidOut height p
    (.subshell p.line body, after.settled)
  | .redirected line body redirections =>
    let (body, p) := body.laidOut height p
    (.redirected line body redirections, writtenAll height p redirections)
  | .sequence apart first second =>
    let (first, p) := first.laidOut height p
    let (second, p) := second.laidOut height (p.between apart)
    (.sequence apart first second, p)
  | .both first second =>
    let (first, p) := first.laidOut height p
    let (second, p) := second.laidOut height p.settled
    (.both first second, p)
  | .either first second =>
    let (first, p) := first.laidOut height p
    let (second, p) := second.laidOut height p.settled
    (.either first second, p)
  | .conditional test yes no =>
    let (test, p) := test.laidOut height p
    let (yes, p) := yes.laidOut height (p.settled.feed 1)
    match no with
    | some no =>
      let (no, p) := no.laidOut height (p.settled.feed 2)
      (.conditional test yes (some no), p.settled.feed 1)
    | none => (.conditional test yes none, p.settled.feed 1)
  | .loop untilTrue test body =>
    let (test, p) := test.laidOut height p
    let (body, p) := body.laidOut height (p.settled.feed 1)
    (.loop untilTrue test body, p.settled.feed 1)
  | .forEach _ name items body =>
    let feeds := match items with
      | some items => feedsOfAll height items
      | none => 0
    let (body, after) := body.laidOut height (p.feed (feeds + 2))
    (.forEach p.line name items body, after.settled.feed 1)
  | .choice _ subject branches =>
    let head := p.feed (feedsOf height subject)
    let (branches, p) := laidOutBranches height head branches
    (.choice head.line subject branches, p.feed 1)
  | .define name body =>
    let (body, after) := body.laidOut height { p.feed 2 with inFunction := true }
    (.define name body, { after.settled.feed 1 with inFunction := p.inFunction })
  | .condition _ test => (.condition p.line test, p)
  | .arithmetic _ body =>
    let p := p.feed (feedsOf height body)
    (.arithmetic p.line body, p)
  | .forArithmetic _ start test next body =>
    let (body, after) := body.laidOut height (p.feed 2)
    (.forArithmetic p.line start test next body, after.settled.feed 1)
  | .timed body =>
    let (body, p) := body.laidOut height p
    (.timed body, p)

def laidOutAll (height : Nat → Nat) (p : Pen) : List Command → List Command × Pen
  | [] => ([], p)
  | command :: rest =>
    let (command, p) := command.laidOut height p
    let (rest, p) := laidOutAll height p rest
    (command :: rest, p)

/-- The branches of a choice, with patterns, commands and ends on lines of their own. -/
def laidOutBranches (height : Nat → Nat) (p : Pen) :
    List (List (List Piece) × Option Command × BranchEnd) →
      List (List (List Piece) × Option Command × BranchEnd) × Pen
  | [] => ([], p)
  | (patterns, none, ending) :: rest =>
    let (rest, p) := laidOutBranches height (p.feed 3) rest
    ((patterns, none, ending) :: rest, p)
  | (patterns, some body, ending) :: rest =>
    let (body, p) := body.laidOut height (p.feed 2)
    let (rest, p) := laidOutBranches height (p.settled.feed 1) rest
    ((patterns, some body, ending) :: rest, p)

end

end ProductLine.Shell
