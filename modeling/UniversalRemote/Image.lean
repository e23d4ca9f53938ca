import UniversalRemote.Checksum
import UniversalRemote.Region
/-!
# Images

An image is what a region of a remote is to hold, with the checksum that goes with it.
-/

namespace UniversalRemote

/-- The contents of a region that are to be installed. -/
structure Image where
  region : Region
  data : List UInt8
  /-- The checksum that goes with the image; computed from its data where absent. -/
  checksum : Option ChecksumRecord := none
  deriving DecidableEq, Repr

def Image.ofConfig (data : List UInt8) : Image :=
  { region := .userConfig, data }

end UniversalRemote
