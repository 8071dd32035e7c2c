import AgentFlow.Number.Single

/-!
# The exponential function in single precision

`expSingle x` is `e ^ x` for a single precision argument.  With `x = (k / 32) · ln 2 + r`, the power
`2 ^ (k / 32)` comes from a table of thirty-two steps of one octave and the rest from a cubic in
`r`; all of it runs in double precision and is rounded once at the end.
-/

namespace AgentFlow.Number

/-- The bits of `2 ^ (i / 32)` with `i · 2 ^ 47` taken off, so that adding `k · 2 ^ 47` to the entry
of `k % 32` gives the bits of `2 ^ (k / 32)`. -/
def octaveSteps : Array UInt64 := #[
  0x3ff0000000000000, 0x3fefd9b0d3158574, 0x3fefb5586cf9890f, 0x3fef9301d0125b51,
  0x3fef72b83c7d517b, 0x3fef54873168b9aa, 0x3fef387a6e756238, 0x3fef1e9df51fdee1,
  0x3fef06fe0a31b715, 0x3feef1a7373aa9cb, 0x3feedea64c123422, 0x3feece086061892d,
  0x3feebfdad5362a27, 0x3feeb42b569d4f82, 0x3feeab07dd485429, 0x3feea47eb03a5585,
  0x3feea09e667f3bcd, 0x3fee9f75e8ec5f74, 0x3feea11473eb0187, 0x3feea589994cce13,
  0x3feeace5422aa0db, 0x3feeb737b0cdc5e5, 0x3feec49182a3f090, 0x3feed503b23e255d,
  0x3feee89f995ad3ad, 0x3feeff76f2fb5e47, 0x3fef199bdd85529c, 0x3fef3720dcef9069,
  0x3fef5818dcfba487, 0x3fef7c97337b9b5f, 0x3fefa4afa2a490da, 0x3fefd0765b6e4540]

/-- `32 / ln 2`. -/
def stepsPerUnit : Float := Float.ofBits 0x40471547652b82fe

/-- A number so large that adding it rounds a moderate number to a whole one. -/
def roundingShift : Float := Float.ofBits 0x4338000000000000

/-- The coefficients of the cubic for `2 ^ (r / 32)`, from the highest power down to the first. -/
def cubic : Float × Float × Float :=
  (Float.ofBits 0x3ebc6af84b912394, Float.ofBits 0x3f2ebfce50fac4f3,
    Float.ofBits 0x3f962e42ff0c52d6)

def expSingle (x : Float32) : Float32 :=
  if x < -103.97208 then 0
  else if 88.72284 < x then Float32.ofBits 0x7F800000
  else
    let z := stepsPerUnit * Single.toDouble x
    let shifted := z + roundingShift
    let k := shifted.toBits
    let r := z - (shifted - roundingShift)
    let power := Float.ofBits (octaveSteps.getD (k % 32).toNat 0 + (k <<< 47))
    let (c₃, c₂, c₁) := cubic
    let y := (c₃ * r + c₂) * (r * r) + (c₁ * r + 1)
    Double.toSingle (y * power)

end AgentFlow.Number
