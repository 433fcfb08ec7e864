import DroneEngage.DoubleArithmetic
import Mathlib.Data.Fin.VecNotation

/-!
# Projection of image points to the ground

A point of the image becomes a ray of the camera, is turned through the mount and
the attitude of the vehicle, and meets a flat ground.  The formulas are those of
the source for any kind of number; the source computes them on doubles.
-/

namespace DroneEngage

class GeoNumber (R : Type) extends Add R, Sub R, Mul R, Div R, Neg R where
  /-- the literal `digits / 10 ^ places` -/
  decimal (digits places : Nat) : R
  fabs : R → R
  lt : R → R → Bool
  le : R → R → Bool
  eq : R → R → Bool

/-- The functions of `<cmath>` that are not written out here. -/
structure CMath (R : Type) where
  sqrt : R → R
  sin : R → R
  cos : R → R
  tan : R → R
  atan : R → R

instance : GeoNumber Double where
  add := Double.add
  sub := Double.sub
  mul := Double.mul
  div := Double.div
  neg := Double.neg
  decimal := Double.decimal
  fabs
    | .finite _ significand exponent => .finite false significand exponent
    | .infinity _ => .infinity false
    | .notANumber => .notANumber
  lt := Double.lt
  le := Double.le
  eq := Double.eq

structure GeoCameraParams (R : Type) where
  hfovDeg : R
  vfovDeg : R
  k1 : R
  k2 : R

structure GeoMountParams (R : Type) where
  pitchDeg : R
  yawDeg : R
  rollDeg : R

structure GeoAttitude (R : Type) where
  rollRad : R
  pitchRad : R
  yawRad : R

structure GeoPose (R : Type) where
  latDeg : R
  lngDeg : R
  relAltM : R

structure GeoProjectionResult (R : Type) where
  ok : Bool
  lat : R
  lng : R
  groundRangeM : R
  uncM : R

abbrev GeoVec3 (R : Type) :=
  Fin 3 → R

variable {R : Type} [GeoNumber R]

namespace GeoNumber

def whole (value : Nat) : R :=
  decimal value 0

def half : R :=
  decimal 5 1

/-- `M_PI` -/
def pi : R :=
  decimal 314159265358979323846 20

end GeoNumber

open GeoNumber

def GeoCameraParams.default : GeoCameraParams R where
  hfovDeg := decimal 622 1
  vfovDeg := decimal 488 1
  k1 := whole 0
  k2 := whole 0

def GeoMountParams.default : GeoMountParams R where
  pitchDeg := -whole 90
  yawDeg := whole 0
  rollDeg := whole 0

def GeoProjectionResult.default : GeoProjectionResult R where
  ok := false
  lat := whole 0
  lng := whole 0
  groundRangeM := whole 0
  uncM := whole 0

def mPerDegLat : R :=
  whole 111320

def geoDeg2Rad (deg : R) : R :=
  deg * pi / whole 180

/-- From `0..1` to `-0.5..0.5`. -/
def geoBoxToCentered (normalized01 : R) : R :=
  normalized01 - half

variable (cmath : CMath R)

def geoRayCamera (u v : R) (cam : GeoCameraParams R) : GeoVec3 R :=
  let x := whole 2 * u * cmath.tan (half * geoDeg2Rad cam.hfovDeg)
  let y := whole 2 * v * cmath.tan (half * geoDeg2Rad cam.vfovDeg)
  if eq cam.k1 (whole 0) && eq cam.k2 (whole 0) then ![x, y, whole 1]
  else
    let r2 := x * x + y * y
    let d := whole 1 + cam.k1 * r2 + cam.k2 * r2 * r2
    ![x * d, y * d, whole 1]

/-- `geoRot`: yaw after pitch after roll -/
def geoRot (r p y : R) (v : GeoVec3 R) : GeoVec3 R :=
  let cr := cmath.cos r
  let sr := cmath.sin r
  let cp := cmath.cos p
  let sp := cmath.sin p
  let cy := cmath.cos y
  let sy := cmath.sin y
  ![(cy * cp) * v 0 + (cy * sp * sr - sy * cr) * v 1 + (cy * sp * cr + sy * sr) * v 2,
    (sy * cp) * v 0 + (sy * sp * sr + cy * cr) * v 1 + (sy * sp * cr - cy * sr) * v 2,
    (-sp) * v 0 + (cp * sr) * v 1 + (cp * cr) * v 2]

def geoRayBody (rayCam : GeoVec3 R) (mount : GeoMountParams R) : GeoVec3 R :=
  geoRot cmath (geoDeg2Rad mount.rollDeg) (geoDeg2Rad mount.pitchDeg)
    (geoDeg2Rad mount.yawDeg) ![rayCam 2, rayCam 0, rayCam 1]

def geoRayNED (rayBody : GeoVec3 R) (att : GeoAttitude R) : GeoVec3 R :=
  geoRot cmath att.rollRad att.pitchRad att.yawRad rayBody

def geoOffsetToLatLng (latDeg lngDeg0 northM eastM : R) : R × R :=
  let clat := cmath.cos (geoDeg2Rad latDeg)
  let mPerDegLng := mPerDegLat * if lt (fabs clat) (decimal 1 6) then decimal 1 6 else clat
  (latDeg + northM / mPerDegLat, lngDeg0 + eastM / mPerDegLng)

def geoDistanceM (lat1 lng1 lat2 lng2 : R) : R :=
  let dlat := (lat2 - lat1) * mPerDegLat
  let dlng := (lng2 - lng1) * mPerDegLat * cmath.cos (geoDeg2Rad ((lat1 + lat2) * half))
  cmath.sqrt (dlat * dlat + dlng * dlng)

/-- The angle that a box of a size subtends at its place. -/
def boxAngle (centre size tanHalfFov : R) : R :=
  fabs
    (cmath.atan (whole 2 * (centre + size * half) * tanHalfFov) -
      cmath.atan (whole 2 * (centre - size * half) * tanHalfFov))

def geoProjectToGround (u v boxW boxH : R) (cam : GeoCameraParams R)
    (mount : GeoMountParams R) (att : GeoAttitude R) (pose : GeoPose R)
    (sigmaAttDeg sigmaAltM rangefinderM : R) : GeoProjectionResult R :=
  let rayNed := geoRayNED cmath (geoRayBody cmath (geoRayCamera cmath u v cam) mount) att
  let n := cmath.sqrt (rayNed 0 * rayNed 0 + rayNed 1 * rayNed 1 + rayNed 2 * rayNed 2)
  if lt n (decimal 1 9) then .default
  else
    let rn := rayNed 0 / n
    let re := rayNed 1 / n
    let rd := rayNed 2 / n
    -- at least 5 degrees below the horizon
    if lt rd (decimal 871557427 10) then .default
    else
      let nearVertical := le (decimal 9659258263 10) rd
      let depthM := if lt (whole 0) rangefinderM && nearVertical then rangefinderM
        else pose.relAltM
      if le depthM (whole 0) then .default
      else
        let slantM := depthM / rd
        let northM := slantM * rn
        let eastM := slantM * re
        let place := geoOffsetToLatLng cmath pose.latDeg pose.lngDeg northM eastM
        let sAlt := sigmaAltM / rd
        let sAtt := geoDeg2Rad sigmaAttDeg * slantM
        let angW := boxAngle cmath u boxW (cmath.tan (half * geoDeg2Rad cam.hfovDeg))
        let angH := boxAngle cmath v boxH (cmath.tan (half * geoDeg2Rad cam.vfovDeg))
        let sBox := half * slantM * if lt angW angH then angH else angW
        { ok := true
          lat := place.1
          lng := place.2
          groundRangeM := cmath.sqrt (northM * northM + eastM * eastM)
          uncM := whole 2 * cmath.sqrt (sAlt * sAlt + sAtt * sAtt + sBox * sBox) }

/-! The steps of `geoProjectToGround` up to its exits, by their names. -/

/-- `ray_ned` -/
def rayNed (u v : R) (cam : GeoCameraParams R) (mount : GeoMountParams R)
    (att : GeoAttitude R) : GeoVec3 R :=
  geoRayNED cmath (geoRayBody cmath (geoRayCamera cmath u v cam) mount) att

/-- `n` -/
def rayLength (ray : GeoVec3 R) : R :=
  cmath.sqrt (ray 0 * ray 0 + ray 1 * ray 1 + ray 2 * ray 2)

/-- `rd` -/
def rayDown (ray : GeoVec3 R) : R :=
  ray 2 / rayLength cmath ray

/-- `MIN_DOWN` -/
def minDown : R :=
  decimal 871557427 10

/-- `depth_m`: the rangefinder near the vertical, else the height. -/
def depthUsed (rd relAltM rangefinderM : R) : R :=
  if lt (whole 0) rangefinderM && le (decimal 9659258263 10) rd then rangefinderM else relAltM

section Exits

variable {u v boxW boxH : R} {cam : GeoCameraParams R} {mount : GeoMountParams R}
  {att : GeoAttitude R} {pose : GeoPose R} {sigmaAttDeg sigmaAltM rangefinderM : R}

/-- A point that is projected has passed every exit. -/
theorem passed_of_ok
    (ok : (geoProjectToGround cmath u v boxW boxH cam mount att pose sigmaAttDeg sigmaAltM
      rangefinderM).ok = true) :
    let ray := rayNed cmath u v cam mount att
    let rd := rayDown cmath ray
    lt (rayLength cmath ray) (decimal 1 9) = false ∧ lt rd minDown = false ∧
      le (depthUsed rd pose.relAltM rangefinderM) (whole 0) = false := by
  intro ray rd
  have long : ¬ lt (rayLength cmath ray) (decimal 1 9) = true := by
    intro short
    rw [show geoProjectToGround cmath u v boxW boxH cam mount att pose sigmaAttDeg sigmaAltM
      rangefinderM = .default from if_pos short] at ok
    cases ok
  have down : ¬ lt rd minDown = true := by
    intro flat
    rw [show geoProjectToGround cmath u v boxW boxH cam mount att pose sigmaAttDeg sigmaAltM
      rangefinderM = .default from (if_neg long).trans (if_pos flat)] at ok
    cases ok
  have deep : ¬ le (depthUsed rd pose.relAltM rangefinderM) (whole 0) = true := by
    intro above
    rw [show geoProjectToGround cmath u v boxW boxH cam mount att pose sigmaAttDeg sigmaAltM
      rangefinderM = .default from
        (if_neg long).trans ((if_neg down).trans (if_pos above))] at ok
    cases ok
  exact ⟨eq_false_of_ne_true long, eq_false_of_ne_true down, eq_false_of_ne_true deep⟩

/-- What is projected past the exits. -/
theorem geoProjectToGround_of_passed {ray : GeoVec3 R} {n rd depthM : R}
    (rayIs : rayNed cmath u v cam mount att = ray) (nIs : rayLength cmath ray = n)
    (rdIs : rayDown cmath ray = rd) (depthIs : depthUsed rd pose.relAltM rangefinderM = depthM)
    (long : lt n (decimal 1 9) = false) (down : lt rd minDown = false)
    (deep : le depthM (whole 0) = false) :
    let result := geoProjectToGround cmath u v boxW boxH cam mount att pose sigmaAttDeg sigmaAltM
      rangefinderM
    result.ok = true ∧
      result.groundRangeM =
        cmath.sqrt (depthM / rd * (ray 0 / n) * (depthM / rd * (ray 0 / n)) +
          depthM / rd * (ray 1 / n) * (depthM / rd * (ray 1 / n))) := by
  subst rayIs nIs rdIs depthIs
  constructor
  · exact congrArg GeoProjectionResult.ok ((if_neg (ne_true_of_eq_false long)).trans
      ((if_neg (ne_true_of_eq_false down)).trans (if_neg (ne_true_of_eq_false deep))))
  · exact congrArg GeoProjectionResult.groundRangeM ((if_neg (ne_true_of_eq_false long)).trans
      ((if_neg (ne_true_of_eq_false down)).trans (if_neg (ne_true_of_eq_false deep))))

end Exits

def tabulated (table : List (Double × Double)) (x : Double) : Double :=
  ((table.find? fun row => row.1.eq x).map Prod.snd).getD .notANumber

/-- The values of `<cmath>` that are met where a level vehicle 10 m above the ground
looks straight down through a lens of 90 by 90 degrees, at latitudes 10 and 11, and
finds a box half as wide and high as the image in its middle. -/
def downwardMath : CMath Double where
  sqrt := tabulated
    [ (.ofInt 0, .ofInt 0),
      (.ofInt 1, .ofInt 1),
      (.finite false 4281057378834657 (-153), .finite false 6209697000026889 (-103)),
      (.finite false 901379896373353 (-45), .finite false 5698739625865557 (-50)),
      (.finite false 6306220341647629 (-10), .finite false 2664614961901649 (-30)),
      (.finite false 12392142400 0, .ofInt 111320) ]
  sin := tabulated
    [ (.ofInt 0, .ofInt 0), (.finite true 884279719003555 (-49), .ofInt (-1)) ]
  cos := tabulated
    [ (.ofInt 0, .ofInt 1),
      (.finite true 884279719003555 (-49), .finite false 4967757600021511 (-106)),
      (.finite false 6288211335136391 (-55), .finite false 8870359658994711 (-53)),
      (.finite false 3458516234325015 (-54), .finite false 4420855817591649 (-52)),
      (.finite false 6288211335136391 (-56), .finite false 4486462071114449 (-52)),
      (.finite false 6602621901893211 (-55), .finite false 8856372870630475 (-53)) ]
  tan := tabulated
    [ (.finite false 884279719003555 (-50), .finite false 9007199254740991 (-53)) ]
  atan := tabulated
    [ (.ofInt 1, .finite false 884279719003555 (-50)),
      (.finite false 9007199254740991 (-54), .finite false 8352332796509007 (-54)),
      (.finite true 9007199254740991 (-54), .finite true 8352332796509007 (-54)) ]

end DroneEngage
