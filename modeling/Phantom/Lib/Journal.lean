import Phantom.Lib.Protocol

namespace Phantom.Lib

/-- What jobs write down in a common trace: an entry says all that a step does to the store, and where it
    may stand, by the earlier entries of the job and by the store. -/
structure Journal (ε σ : Type) where
  record : σ → ε → σ
  Legal : List ε → σ → ε → Prop

namespace Journal

variable {ε σ : Type} (journal : Journal ε σ) (start : σ)

/-- The worlds that entries lead to, each legal where it stands. -/
inductive Written : World ε σ → Prop where
  | blank : Written ⟨start, []⟩
  | entry {world : World ε σ} {job : ℕ} {event : ε} (written : Written world)
      (legal : journal.Legal (world.own job) world.store event) :
      Written (world.after job [event] (journal.record world.store event))

def protocol : Protocol ε σ where
  Inv := journal.Written start
  May _ _ _ := True
  quiet _ _ := trivial

variable {journal start} {ω α : Type} {job : ℕ} {past : List ε} {w : World ε σ}

theorem own_eq_nil (unreported : ∀ entry ∈ w.trace, entry.1 ≠ job) : w.own job = [] := by
  apply List.eq_nil_iff_forall_not_mem.mpr
  grind [World.mem_own]

theorem Written.own_induction (Holds : List ε → Prop) (written : journal.Written start w) (blank : Holds [])
    (entry : ∀ past store event, Holds past → journal.Legal past store event → Holds (past ++ [event])) :
    Holds (w.own job) := by
  induction written with
  | blank => exact blank
  | @entry w author event _ legal ih =>
    grind [World.own_after, World.own_after_other]

variable {Returned : α → World ε σ → Prop}

theorem wp_entry {effect : ℕ → ω → σ → Option (List ε × σ)} {next : ω → σ → Task ω ε σ α} {event : σ → ε}
    (own : w.own job = past)
    (records : ∀ drawn store, effect job drawn store = some ([event store], journal.record store (event store)))
    (legal : ∀ store, journal.Legal past store (event store))
    (more : ∀ drawn store last, last.own job = past ++ [event store] →
      (journal.protocol start).wp job Returned (next drawn store) last) :
    (journal.protocol start).wp job Returned (.step effect next) w := by
  apply Protocol.wp_step Protocol.stable_own own
  intro later drawn events store written ownLater taken
  cases (records drawn later.store).symm.trans taken
  refine ⟨trivial, .entry written (ownLater ▸ legal later.store), more drawn later.store _ ?_⟩
  rw [World.own_after, ownLater]

theorem wp_done {result : α} (own : w.own job = past)
    (returned : ∀ later : World ε σ, later.own job = past → Returned result later) :
    (journal.protocol start).wp (ω := ω) job Returned (.done result) w :=
  Protocol.wp_returns Protocol.stable_own own returned

end Journal

end Phantom.Lib
