/-!
# Models

The product that a remote's skin number stands for.
-/

namespace UniversalRemote

/-- A product as it is sold: who sells it, under which name, and what its makers call it. -/
structure Model where
  manufacturer : String
  name : String
  codename : Option String := none
  deriving DecidableEq, Repr

namespace Model

def logitech (name : String) (codename : Option String := none) : Model :=
  ⟨"Logitech", name, codename⟩

def ofSkin (skin : UInt16) : Model :=
  match skin.toNat with
  | 2 => logitech "Harmony 745"
  | 3 => logitech "Harmony 768"
  | 7 => logitech "Harmony 748"
  | 9 => logitech "Harmony 659"
  | 10 => logitech "Harmony 688"
  | 11 => logitech "Harmony 655"
  | 12 => logitech "Harmony 676"
  | 13 => logitech "Harmony 628"
  | 14 => logitech "Harmony 680"
  | 15 => logitech "Harmony 880" (some "Espresso")
  | 16 => logitech "Harmony 675"
  | 17 => logitech "Harmony 885" (some "Espresso")
  | 18 => logitech "Harmony 520" (some "Mocha Decaf")
  | 19 => logitech "Harmony 890" (some "Cappuccino")
  | 20 => logitech "Harmony 891" (some "Whisky")
  | 21 => logitech "Harmony 892" (some "Sugar")
  | 22 => logitech "Harmony 525" (some "Mocha Decaf")
  | 23 => logitech "Harmony 895" (some "Cappuccino")
  | 24 => logitech "Harmony 896" (some "Whisky")
  | 25 => logitech "Harmony 897" (some "Sugar")
  | 26 | 29 => ⟨"Monster", "AVL-300", some "Godzilla"⟩
  | 27 | 30 => ⟨"Monster", "AVL-300", some "Whisky"⟩
  | 28 | 31 => ⟨"Monster", "AVL-300", some "Sugar"⟩
  | 32 | 33 => ⟨"Monster", "AVL-200", some "Godzilla"⟩
  | 34 | 35 | 42 | 43 => ⟨"Harman Kardon", "TC-30", none⟩
  | 36 => logitech "Harmony XBOX360" (some "Mountain Dew")
  | 37 | 38 => ⟨"Monster", "AV-100", none⟩
  | 39 => logitech "Harmony 880 Pro" (some "Espresso")
  | 40 => logitech "Harmony 890 Pro" (some "Cappuccino")
  | 41 => logitech "Harmony 550" (some "Mocha Grande")
  | 44 => logitech "Harmony 720" (some "Corona")
  | 45 => logitech "Harmony 785" (some "Corona")
  | 46 => logitech "Harmony 522" (some "Mocha Decaf")
  | 47 => ⟨"Logicool", "Harmony 882", some "Espresso"⟩
  | 48 => logitech "Harmony 555" (some "Mocha Grande")
  | 49 => logitech "Harmony 1000" (some "Cognac")
  | 50 => logitech "Harmony 670"
  | 51 => ⟨"Logicool", "Harmony 552", some "Mocha Grande"⟩
  | 52 => logitech "Harmony 1000i" (some "Cognac")
  | _ => ⟨"Unknown", "Unknown", none⟩

def text (m : Model) : String :=
  match m.codename with
  | some codename => s!"{m.manufacturer} {m.name} ({codename})"
  | none => s!"{m.manufacturer} {m.name}"

end Model

end UniversalRemote
