import AgentFlow.Number.Decimal

/-!
# Single and double precision

The fields of binary floating-point numbers, their total order, and their decimal texts.

* `Single.key` orders single precision numbers by their bits: it puts `-0.0` below `0.0`.
* `Single.text`, `Double.text`: the shortest text that reads back, as data formats write it.
* `Single.plain`: the shortest text without an exponent, as messages write it.
* `Single.toDouble`, `Double.toSingle`: a number in the other precision.
-/

namespace AgentFlow.Number

/-- The sign and the magnitude of a number given by its fields, or `none` if it is not finite. -/
def ofFields (sign : Bool) (biased fraction width bias : Nat) (top : Nat) :
    Option (Bool × Magnitude) :=
  if biased = top then none
  else if biased = 0 then some (sign, ⟨fraction, 1 - (bias + width : Nat), false⟩)
  else some (sign, ⟨fraction + Nat.pow 2 width, (biased : Int) - (bias + width : Nat),
    fraction == 0 && biased != 1⟩)

namespace Single

/-- The sign and the magnitude of a finite number of single precision. -/
def parts? (x : Float32) : Option (Bool × Magnitude) :=
  let bits := x.toBits.toNat
  ofFields (bits / Nat.pow 2 31 == 1) (bits / Nat.pow 2 23 % Nat.pow 2 8) (bits % Nat.pow 2 23)
    23 127 255

/-- The place of a number in the total order of single precision. -/
def key (x : Float32) : Int :=
  let bits := x.toBits.toNat
  if bits < Nat.pow 2 31 then bits else (Nat.pow 2 31 : Int) - 1 - bits

def signed (x : Float32) : Bool := x.toBits.toNat / Nat.pow 2 31 == 1

/-- The text of a number, given how its magnitude is written. -/
def write (magnitude : Magnitude → List Char) (x : Float32) : String :=
  match parts? x with
  | some (sign, m) => String.ofList ((if sign then ['-'] else []) ++ magnitude m)
  | none => if x != x then "NaN" else if signed x then "-inf" else "inf"

/-- Data formats write single precision with a point from a millionth up to thirteen digits. -/
def pointRange : PointRange := ⟨-6, 12⟩

/-- The shortest text that reads back, with an exponent for very small and very large numbers. -/
def text (x : Float32) : String := write (fun m => m.shortest.render pointRange) x

/-- The shortest text that reads back, without an exponent. -/
def plain (x : Float32) : String := write (fun m => m.shortest.positional) x

/-- The shortest text that reads back, without an exponent and always with a point. -/
def pointed (x : Float32) : String := write (fun m => m.shortest.pointed) x

def hundredths (x : Float32) : String := write (fun m => m.fixed 2) x

end Single

namespace Double

/-- The sign and the magnitude of a finite number of double precision. -/
def parts? (x : Float) : Option (Bool × Magnitude) :=
  let bits := x.toBits.toNat
  ofFields (bits / Nat.pow 2 63 == 1) (bits / Nat.pow 2 52 % Nat.pow 2 11) (bits % Nat.pow 2 52)
    52 1023 2047

/-- Data formats write double precision with a point from a hundred-thousandth up to sixteen
digits. -/
def pointRange : PointRange := ⟨-5, 15⟩

/-- The text of a finite number, given how its magnitude is written. -/
def write (magnitude : Magnitude → List Char) (x : Float) : String :=
  match parts? x with
  | some (sign, m) => String.ofList ((if sign then ['-'] else []) ++ magnitude m)
  | none => if x != x then "NaN" else if x < 0 then "-inf" else "inf"

/-- The shortest text that reads back, with an exponent for very small and very large numbers. -/
def text (x : Float) : String := write (fun m => m.shortest.render pointRange) x

def hundredths (x : Float) : String := write (fun m => m.fixed 2) x

def tenths (x : Float) : String := write (fun m => m.fixed 1) x

end Double

/-! ### From one precision to the other -/

/-- A number in another format: the nearest number of it, on a tie the one whose last bit is
zero. -/
def recode (target : Float.Model.Format) :
    Float.Model.UnpackedFloat → Float.Model.UnpackedFloat
  | .finite sign significand exponent _ => .round target sign significand exponent
  | x => x

def Single.toDouble (x : Float32) : Float :=
  Float.ofBits ⟨(recode .binary64 (.unpack .binary32 x.toBits.toBitVec)).pack .binary64⟩

def Double.toSingle (x : Float) : Float32 :=
  Float32.ofBits ⟨(recode .binary32 (.unpack .binary64 x.toBits.toBitVec)).pack .binary32⟩

end AgentFlow.Number
