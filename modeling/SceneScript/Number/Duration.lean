import SceneScript.Number.Binary
/-!
# Durations

Times are durations since some start, in whole nanoseconds.
-/

namespace SceneScript

structure Duration where
  nanoseconds : Nat
  deriving DecidableEq, Repr, Inhabited, Ord

namespace Duration

def nanosPerSecond : Nat := 1000000000

def nanosPerMilli : Nat := 1000000

def zero : Duration := ⟨0⟩

/-- The greatest duration: its seconds fill 64 bits. -/
def greatest : Duration := ⟨UInt64.size * nanosPerSecond - 1⟩

def ofParts (seconds nanoseconds : Nat) : Duration := ⟨seconds * nanosPerSecond + nanoseconds⟩

def ofMillis (millis : Nat) : Duration := ⟨millis * nanosPerMilli⟩

def seconds (time : Duration) : Nat := time.nanoseconds / nanosPerSecond

/-- The nanoseconds behind the whole seconds. -/
def fraction (time : Duration) : Nat := time.nanoseconds % nanosPerSecond

def millis (time : Duration) : UInt64 := .ofNat (time.nanoseconds / nanosPerMilli)

instance : Add Duration := ⟨fun time other => ⟨time.nanoseconds + other.nanoseconds⟩⟩

instance : LE Duration := ⟨fun time other => time.nanoseconds ≤ other.nanoseconds⟩

instance (time other : Duration) : Decidable (time ≤ other) :=
  inferInstanceAs (Decidable (time.nanoseconds ≤ other.nanoseconds))

/-- The time from `start` to `now`, zero if the clock went back. -/
def since (now start : Duration) : Duration := ⟨now.nanoseconds - start.nanoseconds⟩

/-- The seconds in single precision. Whole seconds and the rest are rounded, then their sum is. -/
def singleSeconds (time : Duration) : Rat :=
  let single := Binary.Format.single
  single.nearest (single.nearest time.seconds +
    single.nearest (single.nearest time.fraction / nanosPerSecond))

/-- The part of a span that has elapsed, in single precision. -/
def ratio (elapsed span : Duration) : Rat :=
  Binary.Format.single.nearest (elapsed.singleSeconds / span.singleSeconds)

/-- The time of a clock that counts milliseconds in double precision. What is no time after its
start counts as the start, and a time that does not fit as the greatest one. -/
def ofClock : Binary → Duration
  | .finite millis =>
    if millis ≤ 0 then zero
    else
      let nanoseconds := roundEven (Binary.Format.double.nearest (millis / 1000) * nanosPerSecond)
      ⟨min nanoseconds.toNat greatest.nanoseconds⟩
  | _ => zero

end Duration
end SceneScript
