import BulkLoad.Proofs.Import.Tracking

/-!
# Requests with their replies

What a service sees of a program is the requests that it sends, and what the program sees of the
service is the replies to them : the `sendings` of a trace. Those of the uploads beside it are sent
in between (`traffic`).
-/

namespace BulkLoad.Import

/-! ## Of a program -/

/-- The request that an event sends, with the reply to it. -/
def sending? : Event → Option (Api.Request × Api.Reply)
  | ⟨.api (.send request), reply⟩ => some (request, reply)
  | _ => none

/-- The requests of a trace, with the replies to them. -/
def sendings (events : List Event) : List (Api.Request × Api.Reply) :=
  events.filterMap sending?

@[simp] theorem sendings_nil : sendings [] = [] :=
  rfl

theorem sendings_cons (e : Event) (rest : List Event) :
    sendings (e :: rest) = (sending? e).toList ++ sendings rest := by
  cases h : sending? e <;> simp [sendings, h]

@[simp] theorem sendings_append (first rest : List Event) :
    sendings (first ++ rest) = sendings first ++ sendings rest :=
  List.filterMap_append

@[simp] theorem sendings_send (request : Api.Request) (reply : Api.Reply) (rest : List Event) :
    sendings (⟨.api (.send request), reply⟩ :: rest) = (request, reply) :: sendings rest :=
  rfl

@[simp] theorem sendings_wait (span : Api.Span) (cancelled : Bool) (rest : List Event) :
    sendings (⟨.api (.wait span), cancelled⟩ :: rest) = sendings rest :=
  rfl

/-- A question that is none of a call sends nothing. -/
theorem sendings_aside {q : Question} (hq : ∀ call, q ≠ .api call) (a : Answer q)
    (rest : List Event) : sendings (⟨q, a⟩ :: rest) = sendings rest := by
  cases q with
  | api call => exact absurd rfl (hq call)
  | _ => rfl

theorem of_sending? {e : Event} {request : Api.Request} {reply : Api.Reply}
    (h : sending? e = some (request, reply)) : e = ⟨.api (.send request), reply⟩ := by
  unfold sending? at h
  split at h
  · obtain ⟨rfl, rfl⟩ : _ = request ∧ _ = reply := by simpa using h
    rfl
  · simp at h

/-- The trace around one of its requests. -/
theorem split_of_sending? {events : List Event} {n : Nat} {request : Api.Request}
    {reply : Api.Reply} (h : (events[n]?).bind sending? = some (request, reply)) :
    events = events.take n ++ ⟨.api (.send request), reply⟩ :: events.drop (n + 1) := by
  obtain ⟨e, he, hs⟩ := Option.bind_eq_some_iff.1 h
  obtain rfl := of_sending? hs
  obtain ⟨hn, he⟩ := List.getElem?_eq_some_iff.1 he
  rw [← he, List.getElem_cons_drop, List.take_append_drop]

theorem mem_sendings {events : List Event} {request : Api.Request} {reply : Api.Reply} :
    (request, reply) ∈ sendings events ↔ (⟨.api (.send request), reply⟩ : Event) ∈ events := by
  constructor
  · intro h
    obtain ⟨e, hm, he⟩ := List.mem_filterMap.1 h
    exact of_sending? he ▸ hm
  · exact fun h => List.mem_filterMap.2 ⟨_, h, rfl⟩

/-! ## Of a program and its uploads -/

/-- The request that happens, if one does, with the reply to it. -/
def Happening.sending? : Happening → Option (Api.Request × Api.Reply)
  | .own e => Import.sending? e
  | .beside _ _ ⟨.api (.send request), reply⟩ => some (request, reply)
  | _ => none

/-- The request that a program sends itself, with the reply to it. -/
def Happening.ownSending? : Happening → Option (Api.Request × Api.Reply)
  | .own e => Import.sending? e
  | _ => none

/-- What happens around one of the requests of a program. -/
theorem split_of_ownSending? {log : List Happening} {n : Nat} {request : Api.Request}
    {reply : Api.Reply} (h : (log[n]?).bind Happening.ownSending? = some (request, reply)) :
    log = log.take n ++ .own ⟨.api (.send request), reply⟩ :: log.drop (n + 1) := by
  obtain ⟨happening, hl, hs⟩ := Option.bind_eq_some_iff.1 h
  obtain ⟨e, rfl⟩ : ∃ e, happening = .own e := by
    cases happening with
    | own e => exact ⟨e, rfl⟩
    | beside | crashed => cases hs
  obtain rfl := of_sending? hs
  obtain ⟨hn, hl⟩ := List.getElem?_eq_some_iff.1 hl
  rw [← hl, List.getElem_cons_drop, List.take_append_drop]

/-- The requests of a run and of its uploads, with the replies to them. -/
def traffic (log : List Happening) : List (Api.Request × Api.Reply) :=
  log.filterMap Happening.sending?

theorem traffic_cons (happening : Happening) (rest : List Happening) :
    traffic (happening :: rest) = happening.sending?.toList ++ traffic rest := by
  cases h : happening.sending? <;> simp [traffic, h]

/-- What is sent is sent by the program itself, or beside it. -/
theorem of_mem_traffic {log : List Happening} {request : Api.Request} {reply : Api.Reply}
    (h : (request, reply) ∈ traffic log) : (request, reply) ∈ sendings (own log) ∨
      ∃ ticket content, .beside ticket content ⟨.api (.send request), reply⟩ ∈ log := by
  obtain ⟨happening, hm, hs⟩ := List.mem_filterMap.1 h
  match happening with
  | .own e => exact Or.inl (List.mem_filterMap.2 ⟨e, mem_own.2 hm, hs⟩)
  | .beside ticket content ⟨.api (.send request'), reply'⟩ =>
    obtain ⟨rfl, rfl⟩ : request' = request ∧ reply' = reply := by
      simpa [Happening.sending?] using hs
    exact Or.inr ⟨ticket, content, hm⟩
  | .beside _ _ ⟨.api (.wait _), _⟩ => cases hs
  | .beside _ _ ⟨.part _, _⟩ => cases hs
  | .crashed _ => cases hs

@[simp] theorem own_map_own (events : List Event) : own (events.map .own) = events := by
  rw [own, List.filterMap_map]
  exact List.filterMap_some

@[simp] theorem traffic_own (events : List Event) :
    traffic (events.map .own) = sendings events := by
  simp only [traffic, sendings, List.filterMap_map]
  rfl

end BulkLoad.Import
