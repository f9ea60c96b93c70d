import Phantom.AuthChain.Service
import Phantom.Lib.Search

namespace Phantom.AuthChain

open Phantom.Lib Phantom.Matrix Phantom.Rooms Function

structure Extends (before after : Rooms.Store) : Prop where
  shorts : ∀ eventId short, before.shorteventids eventId = some short → after.shorteventids eventId = some short
  events : ∀ short eventId, before.eventids short = some eventId → after.eventids short = some eventId

structure Listed (store : Rooms.Store) : Prop where
  event : ∀ eventId short, store.shorteventids eventId = some short → store.eventids short = some eventId
  drawn : ∀ short eventId, store.eventids short = some eventId → short.toNat ≤ store.count.toNat

section Tables

variable {before middle after store : Rooms.Store} {eventId other : EventId} {short : ShortEventId}

theorem Extends.refl (store : Rooms.Store) : Extends store store := ⟨fun _ _ row => row, fun _ _ row => row⟩

theorem Extends.trans (first : Extends before middle) (second : Extends middle after) : Extends before after where
  shorts := fun eventId short row => second.shorts eventId short (first.shorts eventId short row)
  events := fun short eventId row => second.events short eventId (first.events short eventId row)

theorem Listed.injective (listed : Listed store) (left : store.shorteventids eventId = some short)
    (right : store.shorteventids other = some short) : eventId = other := by
  have first := listed.event eventId short left
  have second := listed.event other short right
  rw [first] at second
  exact Option.some.inj second

section

variable (listed : Listed store) (drew : Drew store short)
include listed drew

theorem Listed.counted : Listed store.counted where
  event := listed.event
  drawn := by
    intro short eventId row
    have drawn := listed.drawn short eventId row
    rw [drew.count_eq]
    omega

theorem Listed.fresh : store.eventids short = none := by
  cases row : store.eventids short with
  | none => rfl
  | some eventId =>
    have drawn := listed.drawn short eventId row
    have number := drew.number
    omega

theorem listed_record :
    Listed (recordShorteventid eventId short store.counted) where
  event := by
    intro other n row
    simp only [recordShorteventid] at row ⊢
    by_cases isEvent : other = eventId
    · grind
    · rw [update_of_ne isEvent] at row
      have listedRow := listed.event other n row
      have ne : n ≠ short := by
        grind [Listed.fresh]
      rw [update_of_ne ne]
      exact listedRow
  drawn := by
    intro drawn other row
    simp only [recordShorteventid] at row ⊢
    by_cases isShort : drawn = short
    · rw [isShort, drew.count_eq, drew.number]
    · rw [update_of_ne isShort] at row
      exact (listed.counted drew).drawn drawn other row

end

theorem extends_record (extended : Extends before store) (listed : Listed store) (drew : Drew store short)
    (missing : before.shorteventids eventId = none) :
    Extends before (recordShorteventid eventId short store.counted) where
  shorts := by
    intro other n row
    have ne : other ≠ eventId := by
      rintro rfl
      rw [missing] at row
      cases row
    simp only [recordShorteventid]
    rw [update_of_ne ne]
    exact extended.shorts other n row
  events := by
    intro n other row
    have kept := extended.events n other row
    have ne : n ≠ short := by
      grind [Listed.fresh]
    simp only [recordShorteventid]
    rw [update_of_ne ne]
    exact kept

theorem Extends.named {key : List ShortEventId} {events : List EventId} (extended : Extends before after)
    (named : key.map before.eventids = events.map some) : key.map after.eventids = events.map some := by
  grind [List.map_congr_left, List.mem_map_of_mem, Extends.events]

end Tables

section Calls

variable {before store : Rooms.Store}

theorem createShorteventid_spec (eventId : EventId) (extended : Extends before store) (listed : Listed store)
    (missing : before.shorteventids eventId = none) : (createShorteventid eventId).wp store
      (fun short after => Extends before after ∧ Listed after ∧
        (∀ n other, store.eventids n = some other → after.eventids n = some other) ∧
        after.eventids short = some eventId) (fun failure after => failure = counterOverflow ∧ after = store) := by
  apply Action.wp_then (nextCount_spec store)
  rintro short after ⟨drew, rfl⟩
  have kept : Extends { store with shorteventids := fun _ => none }
      (recordShorteventid eventId short store.counted) := extends_record ⟨nofun, fun _ _ row => row⟩ listed drew rfl
  exact ⟨extends_record extended listed drew missing, listed_record listed drew, kept.events, update_self _ _ _⟩

theorem getOrCreateShorteventid_extends (eventId : EventId) (listed : Listed store) :
    (getOrCreateShorteventid eventId).wp store
      (fun short after => Extends store after ∧ Listed after ∧ after.shorteventids eventId = some short)
      (fun failure after => failure = counterOverflow ∧ after = store) := by
  apply Action.wp_then (getOrCreateShort_spec _ _ store)
  rintro ⟨short, existed⟩ after (⟨_, found, rfl⟩ | ⟨_, missing, drew, rfl⟩)
  · exact ⟨.refl _, listed, found⟩
  · exact ⟨extends_record (.refl store) listed drew missing, listed_record listed drew, update_self _ _ _⟩

theorem multiGetOrCreateShorteventid_spec (eventIds : List EventId) (listed : Listed store) :
    (multiGetOrCreateShorteventid eventIds).wp store
      (fun shorts after => Extends store after ∧ Listed after ∧ shorts.map after.eventids = eventIds.map some)
      (fun failure after => failure = counterOverflow ∧ Extends store after ∧ Listed after) := by
  apply Action.wp_foldlM fun (done : List EventId) (shorts : List ShortEventId) (after : Rooms.Store) =>
    Extends store after ∧ Listed after ∧ shorts.map after.eventids = done.map some
  · intro done eventId shorts s _ held
    obtain ⟨extended, listedNow, named⟩ := held
    cases row : store.shorteventids eventId with
    | some short =>
      have event : s.eventids short = some eventId :=
        listedNow.event eventId short (extended.shorts eventId short row)
      refine ⟨extended, listedNow, ?_⟩
      grind
    | none =>
      apply Action.wp_seq (createShorteventid_spec eventId extended listedNow row)
      · intro short after created
        obtain ⟨extendedAfter, listedAfter, kept, event⟩ := created
        have same : shorts.map after.eventids = shorts.map s.eventids := by
          grind [List.map_congr_left, List.mem_map_of_mem]
        refine ⟨extendedAfter, listedAfter, ?_⟩
        grind
      · grind
  · exact ⟨.refl store, listed, rfl⟩

end Calls

end Phantom.AuthChain
