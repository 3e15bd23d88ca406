/-
Telling text from binary data by the share of control characters at its start.
-/

namespace DocWeave.TextCheck

def sampleSize : Nat := 1000

/-- The share that is used when the given one is not strictly between zero and
one. -/
def defaultThreshold : Float := 0.05

def effectiveThreshold (threshold : Float) : Float :=
  if threshold.isFinite && 0.0 < threshold && threshold < 1.0 then threshold
  else defaultThreshold

/-- Control characters that text does not hold: all below the blank but tab, line
feed, vertical tab, form feed and carriage return. -/
def isControl (c : Char) : Bool :=
  c.toNat < 9 || (13 < c.toNat && c.toNat < 32)

/-- Whether the share of control characters among the first ones stays below the
threshold.  Empty text is text. -/
def isLikelyText (text : String) (threshold : Float) : Bool :=
  let sample := text.toList.take sampleSize
  sample.isEmpty ||
    Float.ofNat (sample.countP isControl) / Float.ofNat sample.length
      < effectiveThreshold threshold

end DocWeave.TextCheck
