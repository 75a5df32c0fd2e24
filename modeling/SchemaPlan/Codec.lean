import SchemaPlan.Error
import SchemaPlan.Text.Blank

/-!
# Compression codecs

A `Codec` has a name, under which declarations and JSON documents know it, and a keyword, under
which statements do. A `CodecTable` lists the codecs that may be used; `CodecTable.lookup` finds
one of them by name, whatever the case of its letters and the blanks around it.
-/

namespace SchemaPlan

/-- How messages of a topic may be compressed. -/
inductive Codec where
  | raw
  | gzip
  | zstd
  deriving Repr, DecidableEq

namespace Codec

/-- Every codec there is. -/
def all : List Codec :=
  [raw, gzip, zstd]

/-- The name of a codec. -/
def name : Codec → String
  | raw => "raw"
  | gzip => "gzip"
  | zstd => "zstd"

/-- The keyword of a codec in statements. -/
def keyword : Codec → String
  | raw => "RAW"
  | gzip => "GZIP"
  | zstd => "ZSTD"

/-- The codec of exactly this name. -/
def ofName? (name : String) : Option Codec :=
  all.find? fun codec => codec.name = name

/-- The codec of this name, whatever the case of the letters and the blanks around them. The
lower-case form of no character outside ASCII lies inside one of the names, so ASCII case is all
that matters. -/
def ofText? (text : String) : Option Codec :=
  ofName? (.ofList ((Text.trim text).toList.map Char.toLower))

end Codec

/-- The codecs that may be used, in the order in which they are offered. -/
structure CodecTable where
  allowed : List Codec
  deriving Repr, DecidableEq

namespace CodecTable

/-- The table that allows every codec. -/
def standard : CodecTable :=
  ⟨Codec.all⟩

/-- The allowed codec that `name` denotes. -/
def lookup (table : CodecTable) (name : String) : Except Error Codec :=
  match Codec.ofText? name with
  | some codec => if codec ∈ table.allowed then .ok codec else .error (.unknownCodec name)
  | none => .error (.unknownCodec name)

/-- The allowed codecs that `names` denote, in order; the first name that denotes none is an
error. -/
def lookupAll (table : CodecTable) (names : List String) : Except Error (List Codec) :=
  names.mapM table.lookup

end CodecTable

end SchemaPlan
