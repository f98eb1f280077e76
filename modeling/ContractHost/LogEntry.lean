import ContractHost.Address

/-!
# Logs

A contract leaves log entries for the outside world: some bytes of data and at most four topics to
find them by.  An entry with more topics is refused as a whole rather than cut.
-/

namespace ContractHost

/-- An entry in the log of an account. -/
structure LogEntry where
  address : Address
  data : Bytes
  /-- The words to find the entry by. -/
  topics : List Word
deriving DecidableEq

namespace LogEntry

/-- The largest number of topics. -/
def topicLimit : Nat := 4

/-- A log entry, or a fault if it has too many topics. -/
def make (address : Address) (data : Bytes) (topics : List Word) : Except Fault LogEntry :=
  if topicLimit < topics.length then
    .error (.violation (.tooManyTopics topics.length topicLimit))
  else .ok { address, data, topics }

/-- The entry as reports show it: address, data, and the topics with their positions. -/
instance : ToString LogEntry where
  toString entry :=
    entry.address.toHex ++ " data=0x" ++ Hex.encode entry.data ++
      String.join (entry.topics.zipIdx.map fun (topic, i) =>
        " t" ++ toString i ++ "=" ++ topic.toHex)

end LogEntry

end ContractHost
