import Remodel.Codec.Sha256

/-!
# Drawn ids

Ids for records of models that have none: sixteen bytes in hexadecimal, with dashes.  They
are drawn from a random seed, so that no two are expected to be alike.
-/

namespace Remodel

/-- Sixteen bytes as an id; two places say that the others are random. -/
def idOfBytes (bytes : Codec.Bytes) : String :=
  let marked := (bytes.modify 6 fun b => b &&& 0x0F ||| 0x40).modify 8 fun b => b &&& 0x3F ||| 0x80
  let part := fun (start length : Nat) => Codec.Hex.encode ((marked.drop start).take length)
  part 0 4 ++ "-" ++ part 4 2 ++ "-" ++ part 6 2 ++ "-" ++ part 8 2 ++ "-" ++ part 10 6

/-- The id that is drawn from a seed after a number of others. -/
def drawnId (seed : Codec.Bytes) (count : Nat) : String :=
  idOfBytes ((Codec.Sha256.digest (seed ++ Codec.Sha256.bigEndian 8 count)).take 16)

end Remodel
