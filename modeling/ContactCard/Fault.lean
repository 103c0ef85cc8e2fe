/-!
# Faults

What can go wrong in a basic operation on a value. A fault carries no text of its own: what it means
for a card is said by the operation that meets it.
-/

namespace ContactCard

/-- The cause of a failed basic operation. -/
inductive Fault where
  /-- A text that does not spell a number, or a double that is not a number, where one is needed. -/
  | badNumber
  /-- An integer of too many digits, where it is to be written. -/
  | tooManyDigits
  /-- A number outside the range of what it is to be turned into. -/
  | unboundedNumber
  /-- More bytes than any memory holds. -/
  | outOfMemory
  /-- A value of a kind that the operation does not take. -/
  | wrongKind
  /-- Something asked of a value, a property or a class that it does not have. -/
  | missingPart
  /-- A key that has no value, where the value is to be removed. -/
  | missingKey
  /-- An item that a list does not hold, where it is to be removed. -/
  | absentItem
  /-- A name whose namespace is not closed by a brace. -/
  | unclosedNamespace
  /-- A URL whose authority is malformed. -/
  | badAuthority
  /-- Settings whose defaults refer to one another in a circle. -/
  | circularDefault
  /-- A directory that does not exist. -/
  | noDirectory
  deriving DecidableEq

end ContactCard
