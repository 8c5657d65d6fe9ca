/-!
What can go wrong with a value that was accepted as data: it cannot be written, or it cannot serve
as a key.
-/
namespace SchemaMigration

inductive Fault where
  /-- An integer of more than 4300 digits is neither written nor read. -/
  | integerTooLong
  /-- In UTC the point in time lies outside the years 1 to 9999. -/
  | outsideCalendar
  /-- A list or a dictionary stands where a key is needed. -/
  | unhashable
  /-- A signaling NaN is compared with a number. -/
  | incomparable
  /-- Texts are joined and one of them is none. -/
  | notText
  | notSerializable (kind : String)
  deriving DecidableEq

end SchemaMigration
