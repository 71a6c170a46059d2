/-! The unit of angles. Forward functions of an angle read their argument in the current
unit, and inverse functions give their result in it.
-/

namespace Calculator

/-- An angle in radians as degrees: one multiplication by the number nearest to `180 / π`. -/
def degreesOfRadians (x : Float) : Float :=
  x * .ofBits 0x404ca5dc1a63c1f8

/-- An angle in degrees as radians: one multiplication by the number nearest to `π / 180`. -/
def radiansOfDegrees (x : Float) : Float :=
  x * .ofBits 0x3f91df46a2529d39

/-- The unit in which expressions read and give angles. -/
inductive AngleMode where
  | radian
  | degree
deriving DecidableEq, Inhabited

namespace AngleMode

/-- The other unit. -/
def toggled : AngleMode → AngleMode
  | radian => degree
  | degree => radian

/-- The number by which expressions tell the units apart. -/
def code : AngleMode → Float
  | radian => 0
  | degree => 1

/-- An angle of this unit in radians. -/
def toRadians : AngleMode → Float → Float
  | radian, x => x
  | degree, x => radiansOfDegrees x

/-- An angle in radians in this unit. -/
def ofRadians : AngleMode → Float → Float
  | radian, x => x
  | degree, x => degreesOfRadians x

end AngleMode

end Calculator
