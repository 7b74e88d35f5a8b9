/- # Tickets — telling the requests of a run apart

Every request to an engine carries a ticket.  Its first part names a family
of normalizers, a normalizer and its copies; the second counts the requests
of that family from zero.  The first part has a fixed width when printed, so
two tickets with the same text are the same ticket.  How a family is spelled
is nothing that a ticket depends on otherwise.
-/

namespace ProductLine

/-- The name of a family of normalizers, drawn anew for each family. -/
abbrev FamilyId := BitVec 128

/-- What identifies one request. -/
structure Ticket where
  family : FamilyId
  sequence : UInt64
deriving DecidableEq

def hexDigits (n : Nat) : (width : Nat) → List Char
  | 0 => []
  | width + 1 => hexDigits (n / 16) width ++ [Nat.digitChar (n % 16)]

def familyText (family : FamilyId) : String :=
  String.ofList (hexDigits family.toNat 32)

namespace Ticket

/-- The family as `spell` writes it, a hyphen, and the number in decimal. -/
def textBy (spell : FamilyId → String) (t : Ticket) : String :=
  spell t.family ++ "-" ++ toString t.sequence.toNat

/-- The ticket as programs get to see it. -/
def text (t : Ticket) : String :=
  t.textBy familyText

end Ticket

/-- A family's counter of requests: the number of the next one. -/
structure TicketBook where
  family : FamilyId
  next : UInt64 := 0
deriving DecidableEq

namespace TicketBook

def ticket (book : TicketBook) : Ticket := ⟨book.family, book.next⟩

/-- The counter after the next ticket has been taken. -/
def advance (book : TicketBook) : TicketBook := { book with next := book.next + 1 }

end TicketBook

end ProductLine
