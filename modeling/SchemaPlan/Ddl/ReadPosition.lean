import SchemaPlan.Ddl.Region
import SchemaPlan.Ddl.Statement
import SchemaPlan.Timestamp.Reader

/-!
# Read positions in statements

A statement gives the read position of a consumer as a text between `Datetime(` and `)`.
`Ddl.storedPositions?` reads all of these texts as timestamps, as a database does that stores them.
`Operation.readPositions` are the read positions that an operation gives to consumers, and
`Timestamp.StoredAs` relates a position that an operation gives to the one that is stored for it.
-/

namespace SchemaPlan

namespace Ddl

/-- The word in front of the text of an instant. -/
def instantWord : String := "Datetime("

/-- The texts that stand directly after the word of an instant. The characters `before` stand in
front of the pieces, back to the last region, the last one first. -/
def instantTexts (before : List Char) : List Piece → List String
  | [] => []
  | .outside c :: ps => instantTexts (c :: before) ps
  | .region quote content :: ps =>
    (if quote = .text ∧ instantWord.toList.reverse.isPrefixOf before then [.ofList content] else [])
      ++ instantTexts [] ps

/-- The timestamps that the instants of a statement are read as. -/
def storedPositions? (statement : String) : Option (List Timestamp) := do
  (instantTexts [] (← regions? statement)).mapM Timestamp.read?

end Ddl

namespace Operation

/-- Whether an operation creates or changes a topic. -/
def isAboutTopic : Operation → Bool
  | createTopic _ => true
  | alterTopic _ _ => true
  | changeConsumer _ _ => true
  | _ => false

/-- The read positions that an operation gives to consumers, in order. -/
def readPositions : Operation → List Timestamp
  | createTopic topic => topic.consumers.map Consumer.readFrom
  | changeConsumer _ (.add consumer) => [consumer.readFrom]
  | changeConsumer _ (.setReadFrom _ readFrom) => [readFrom]
  | _ => []

end Operation

namespace Timestamp

/-- The read position of a consumer for which an instant is declared. -/
def effective (t : Timestamp) : Timestamp :=
  ({ name := "", readFrom := some t } : DeclaredConsumer).effectiveReadFrom

/-- A consumer to which the position `t` was given has `position` stored for it: the one in the
statement of an operation that gives `t`. -/
def StoredAs (t position : Timestamp) : Prop :=
  ∃ (operation : Operation) (s : String), operation.isAboutTopic = true ∧
    operation.readPositions = [t] ∧ operation.statement = .ok s ∧
    Ddl.storedPositions? s = some [position]

end Timestamp

end SchemaPlan
