import FieldWalk.Numeral.Wide
/-!
The gamma function of real numbers, by the sum of Lanczos, and its logarithmic derivative, by the
asymptotic series. Below one half both come from the reflected argument.
-/

namespace FieldWalk.Numeral.Wide

/-- The gamma function of a real number, none at its poles. -/
def gamma? (v : Wide) : Option Wide :=
  if !v.isFinite then some v
  else if !v.isPositive && ((Wide.ofInt v.floorInt).sub v).isZero then none
  else
    -- the sum of Lanczos for numbers from one half on, the reflection below
    let upper (v : Wide) : Wide :=
      let x := v.sub .one
      let terms : List Float := [676.5203681218851, -1259.1392167224028, 771.32342877765313,
        -176.61502916214059, 12.507343278686905, -0.13857109526572012, 9.9843695780195716e-6,
        1.5056327351493116e-7]
      let total := terms.zipIdx.foldl (fun (s : Wide) (c, i) =>
        s + ((Wide.ofFloat c).div? (x + .ofInt (i + 1))).getD .zero) (.ofFloat 0.99999999999980993)
      let t := x + .ofFloat 7.5
      let power := (t.log * (x + .ofFloat 0.5)).exp
      .ofFloat 2.5066282746310002 * power * t.neg.exp * total
    let half : Wide := .ofFloat 0.5
    if v.lt half then
      let s := (Wide.pi * v).sin * upper (Wide.one.sub v)
      Wide.pi.div? s
    else
      let r := upper v
      -- whole numbers have whole values
      if ((Wide.ofInt v.floorInt).sub v).isZero && v.lt (.ofInt 23) then
        some (.ofInt (r + half).floorInt)
      else some r

/-- The logarithmic derivative of the gamma function, none at its poles. -/
def digamma? (v : Wide) : Option Wide :=
  if !v.isFinite then some v
  else if !v.isPositive && ((Wide.ofInt v.floorInt).sub v).isZero then none
  else
    let rec upper : Nat → Float → Float
      | 0, x =>
        let y := 1 / (x * x)
        x.log - 0.5 / x
          - y * (1 / 12 - y * (1 / 120 - y * (1 / 252 - y * (1 / 240 - y * (1 / 132)))))
      | n + 1, x => if x < 10 then upper n (x + 1) - 1 / x else upper 0 x
    let x := v.toFloat
    some (.ofFloat (if x < 0.5 then
      let angle := Wide.pi.toFloat * x
      upper 12 (1 - x) - Wide.pi.toFloat * angle.cos / angle.sin
    else upper 12 x))

end FieldWalk.Numeral.Wide
