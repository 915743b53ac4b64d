/-!
This module contains the journal that the stages of the library keep.
-/

namespace RecordCodec

inductive LogValue where
  | text (s : String)
  | number (n : Nat)
  deriving DecidableEq, Repr

structure LogEntry where
  logger : String
  message : String
  details : List (String × LogValue)
  deriving DecidableEq, Repr

end RecordCodec
