/-!
# The loading flag

A renderer shows whether it is loading grammars at the moment. Several loads may be in flight at once,
so they are counted: the load that finds none in flight raises the flag, and the load that leaves none
behind lowers it.

Beginning a load has two halves, the count and the announcement, and so has ending one. The
announcement depends on the count as the first half found it.
-/

namespace CodeMarkup

/-- How many loads are in flight, and what is shown of that. -/
structure LoadingFlag where
  /-- the loads in flight -/
  inFlight : Nat
  /-- whether loading is shown -/
  shown : Bool
  deriving DecidableEq, Repr

namespace LoadingFlag

/-- No load in flight, and none shown. -/
def idle : LoadingFlag := ⟨0, false⟩

/-- Counts a load that begins. -/
def countIn (flag : LoadingFlag) : LoadingFlag :=
  { flag with inFlight := flag.inFlight + 1 }

/-- Announces a load that began when there were `before` in flight. -/
def announceIn (before : Nat) (flag : LoadingFlag) : LoadingFlag :=
  if before = 0 then { flag with shown := true } else flag

/-- Counts a load that ends. -/
def countOut (flag : LoadingFlag) : LoadingFlag :=
  { flag with inFlight := flag.inFlight - 1 }

/-- Announces the end of a load that was one of `before` in flight. -/
def announceOut (before : Nat) (flag : LoadingFlag) : LoadingFlag :=
  if before = 1 then { flag with shown := false } else flag

/-- Both halves of beginning a load. -/
def raise (flag : LoadingFlag) : LoadingFlag :=
  flag.countIn.announceIn flag.inFlight

/-- Both halves of ending a load. -/
def lower (flag : LoadingFlag) : LoadingFlag :=
  flag.countOut.announceOut flag.inFlight

/-- Beginning a load keeps the flag in step with the count. -/
theorem shown_raise_iff (flag : LoadingFlag) (h : flag.shown = true ↔ 0 < flag.inFlight) :
    flag.raise.shown = true ↔ 0 < flag.raise.inFlight := by
  unfold raise announceIn countIn
  split
  · simp
  · simp only [h]
    omega

/-- Ending a load keeps the flag in step with the count. -/
theorem shown_lower_iff (flag : LoadingFlag) (h : flag.shown = true ↔ 0 < flag.inFlight) :
    flag.lower.shown = true ↔ 0 < flag.lower.inFlight := by
  unfold lower announceOut countOut
  split
  · simp_all
  · simp only [h]
    omega

end LoadingFlag

end CodeMarkup
