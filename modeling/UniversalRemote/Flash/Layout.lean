import UniversalRemote.Word
/-!
# Flash sectors

A layout cuts a flash memory into sectors at given boundaries. Addresses are 32-bit words, and a
boundary beyond them is an overflow, shown here as an absent value.
-/

namespace UniversalRemote

/-- A sector: its first address, and the address behind its last. -/
structure Sector where
  first : UInt32
  stop : UInt32
  deriving DecidableEq, Repr

/-- Whether a sector has an address in the range from `first` up to, not including, `stop`. -/
def Sector.meets (s : Sector) (first stop : UInt32) : Bool :=
  s.first < stop && first < s.stop

/-- The sectors of a flash memory: consecutive boundaries, counted from a base, enclose one. -/
structure SectorLayout where
  base : UInt32
  boundaries : List UInt32
  deriving DecidableEq, Repr

namespace SectorLayout

/-- The address behind the last sector. -/
def stop (layout : SectorLayout) : Option UInt32 :=
  checkedSum layout.base (layout.boundaries.getLastD 0)

def sector (layout : SectorLayout) (first stop : UInt32) : Option Sector := do
  return ⟨← checkedSum layout.base first, ← checkedSum layout.base stop⟩

def sectors (layout : SectorLayout) : Option (List Sector) :=
  (layout.boundaries.zip layout.boundaries.tail).mapM fun (first, stop) => layout.sector first stop

/-- The sectors that hold some address of the `length` addresses from `first` on. -/
def overlapping (layout : SectorLayout) (first length : UInt32) : Option (List Sector) :=
  if length = 0 then some []
  else layout.sectors.map (·.filter (·.meets first (cappedSum first length)))

end SectorLayout

end UniversalRemote
