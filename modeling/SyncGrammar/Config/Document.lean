import SyncGrammar.Text

namespace SyncGrammar

structure Document.Scalar where
  text : Text
  quoted : Bool
  deriving DecidableEq, Repr

structure DocumentEntry where
  key : Text
  value : Document.Scalar
  deriving DecidableEq, Repr

structure DocumentFormat where
  /-- The entries of a document, or why it is malformed. -/
  entries : Text → Except String (List DocumentEntry)
  /-- What is said of entries that are no settings. -/
  complaint : List DocumentEntry → String

end SyncGrammar
