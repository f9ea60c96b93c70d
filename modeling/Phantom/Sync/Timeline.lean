import Mathlib.Data.List.Range
import Phantom.Matrix.Event

namespace Phantom.Sync

open Phantom.Matrix

section Tables

variable {ρ : Type} {table : Nat → Option ρ} {upTo count : Nat} {row : ρ}

def ascending (table : Nat → Option ρ) (upTo : Nat) : List (Nat × ρ) :=
  (List.range (upTo + 1)).filterMap fun count => (table count).map fun row => (count, row)

theorem mem_ascending : (count, row) ∈ ascending table upTo ↔ count ≤ upTo ∧ table count = some row := by
  grind [Option.map_eq_some_iff, ascending]

theorem pairwise_ascending (table : Nat → Option ρ) (upTo : Nat) :
    (ascending table upTo).Pairwise (fun left right => left.1 < right.1) := by
  refine List.Pairwise.filterMap _ ?_ List.pairwise_lt_range
  grind [Option.map_eq_some_iff]

end Tables

/-- What `load_timeline` returns: the events, oldest first, whether older ones were left out, and
    the count of the newest event it met, if any. -/
structure Timeline where
  events : List (Nat × EventId)
  limited : Bool
  lastTimelineCount : Option Nat
deriving DecidableEq

/-- The loop of `load_timeline`, over the events from the newest on. -/
def takeTimeline (since limit : Nat) : List (Nat × EventId) → List (Nat × EventId) →
    List (Nat × EventId) × Bool
  | [], taken => (taken, false)
  | pdu :: pdus, taken =>
    if pdu.1 ≤ since then (taken, false)
    else if taken.length = limit then (taken, true)
    else takeTimeline since limit pdus (pdu :: taken)

def loadTimeline (pduidPdu : Nat → Option EventId) (since nextBatch limit : Nat) : Timeline :=
  let pdusRev := (ascending pduidPdu nextBatch).reverse
  let (events, limited) := takeTimeline since limit pdusRev []
  ⟨events, limited, pdusRev.head?.map Prod.fst⟩

def getToDeviceEvents (todeviceidEvents : Nat → Option Nat) (since upTo : Nat) : List (Nat × Nat) :=
  (ascending todeviceidEvents upTo).filter fun event => since < event.1

section Reads

variable {pduidPdu : Nat → Option EventId} {since nextBatch limit count : Nat} {event : EventId}
variable {pdus taken : List (Nat × EventId)}

variable {pdu : Nat × EventId}

theorem takeTimeline_taken (mem : pdu ∈ taken) : pdu ∈ (takeTimeline since limit pdus taken).1 := by
  induction pdus generalizing taken with
  | nil => exact mem
  | cons next pdus ih =>
    grind [takeTimeline]

theorem takeTimeline_complete (descending : pdus.Pairwise fun left right => right.1 < left.1)
    (whole : (takeTimeline since limit pdus taken).2 = false) (mem : pdu ∈ pdus) (after : since < pdu.1) :
    pdu ∈ (takeTimeline since limit pdus taken).1 := by
  induction pdus generalizing taken with
  | nil => cases mem
  | cons next pdus ih =>
    obtain ⟨first, rest⟩ := List.pairwise_cons.mp descending
    rw [takeTimeline] at whole ⊢
    split at whole
    · next old =>
      rcases List.mem_cons.mp mem with rfl | inside
      · omega
      · have less := first pdu inside
        omega
    split at whole
    · cases whole
    · next new room =>
      rw [if_neg new, if_neg room]
      rcases List.mem_cons.mp mem with rfl | inside
      · exact takeTimeline_taken List.mem_cons_self
      · exact ih rest whole inside

theorem loadTimeline_complete (found : pduidPdu count = some event) (after : since < count)
    (covered : count ≤ nextBatch) (whole : (loadTimeline pduidPdu since nextBatch limit).limited = false) :
    (count, event) ∈ (loadTimeline pduidPdu since nextBatch limit).events := by
  apply takeTimeline_complete _ whole
  · grind [mem_ascending]
  · exact after
  · grind [pairwise_ascending]

theorem mem_getToDeviceEvents {todeviceidEvents : Nat → Option Nat} {message upTo : Nat} :
    (count, message) ∈ getToDeviceEvents todeviceidEvents since upTo ↔
      since < count ∧ count ≤ upTo ∧ todeviceidEvents count = some message := by
  grind [mem_ascending, getToDeviceEvents]

end Reads

end Phantom.Sync
