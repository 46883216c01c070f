/-
# `RLCM.AgentLoop.ServerManager` — which server a generation request goes to

`AsyncLLMServerManager` keeps a heap of the servers by how many requests they were
given, and an LRU cache that sends the turns of one conversation to one server.
`_choose_server` has no `await`, so the requests of all agent loops come one after
another, in an order nobody knows; `serve` is a run over any order.

Two things hold of every run: the servers are given new conversations evenly
(`Balanced`, kept by every step), and a conversation stays on its server unless as
many other conversations as the cache has room for came between its turns.
-/
import RLCM.Py.Heapq
import RLCM.Lib.Lru
import RLCM.Lib.Differencing
import Mathlib.Data.Prod.Lex

namespace RLCM.AgentLoop

open Py Lru Differencing

variable {K S : Type} [DecidableEq K]

/-! ## The manager -/

/-- An entry of `weighted_serveres`. -/
structure WeightedServer (S : Type) where
  requests : ℕ
  idx : ℕ
  server : S

/-- Lists compare by their first entries that differ, and no two have one index. -/
def WeightedServer.lt (a b : WeightedServer S) : Bool :=
  decide (toLex (a.requests, a.idx) < toLex (b.requests, b.idx))

/-- `AsyncLLMServerManager`. -/
structure ServerManager (lru : LruCache K S) where
  weightedServers : List (WeightedServer S)
  requestIdToServer : lru.Cache

/-- `__init__`, for the handles in the order they were shuffled to. -/
def ServerManager.init (lru : LruCache K S) (serverHandles : List S) : ServerManager lru where
  weightedServers := Heapq.heapify WeightedServer.lt
    (serverHandles.zipIdx.map (fun (server, idx) => { requests := 0, idx, server }))
  requestIdToServer := lru.new

variable {lru : LruCache K S}

def chooseServer (mgr : ServerManager lru) (requestId : K) : Except Error (S × ServerManager lru) :=
  match lru.getItem mgr.requestIdToServer requestId with
  | some (server, cache) => .ok (server, { mgr with requestIdToServer := cache })
  | none => do
      let least ← getItem mgr.weightedServers 0
      let least := { least with requests := least.requests + 1 }
      let (_, weightedServers) ← Heapq.heapreplace WeightedServer.lt mgr.weightedServers least
      pure (least.server,
        { weightedServers
          requestIdToServer := lru.setItem mgr.requestIdToServer requestId least.server })

/-- A run of requests. -/
def serve (mgr : ServerManager lru) : List K → Except Error (List S × ServerManager lru)
  | [] => pure ([], mgr)
  | requestId :: requestIds => do
      let (server, mgr) ← chooseServer mgr requestId
      let (servers, mgr) ← serve mgr requestIds
      pure (server :: servers, mgr)

/-- The servers that new conversations of a run are given to. -/
def assigned (mgr : ServerManager lru) : List K → List S
  | [] => []
  | requestId :: requestIds =>
      match chooseServer mgr requestId with
      | .error _ => []
      | .ok (server, next) =>
          if (lru.getItem mgr.requestIdToServer requestId).isNone then
            server :: assigned next requestIds
          else assigned next requestIds

/-! ## What a request does -/

theorem weakOrder_lt : Heapq.WeakOrder (WeightedServer.lt (S := S)) :=
  Heapq.weakOrder_of_key (fun a : WeightedServer S => toLex (a.requests, a.idx))

section Step

variable {mgr mgr' : ServerManager lru} {requestId : K} {server : S}

theorem mem_of_lookup {entries : List (K × S)} (h : entries.lookup requestId = some server) :
    (requestId, server) ∈ entries := by
  induction entries with
  | nil => cases h
  | cons e entries ih =>
      obtain ⟨id, s⟩ := e
      rw [List.lookup_cons] at h
      cases hid : requestId == id with
      | true =>
          rw [hid] at h
          cases h
          rw [beq_iff_eq.mp hid]
          exact List.mem_cons_self
      | false =>
          rw [hid] at h
          exact List.mem_cons_of_mem _ (ih h)

/-- A request whose server is known only refreshes the cache; any other goes to
the root of the heap, which moves down. -/
theorem chooseServer_cases (h : chooseServer mgr requestId = .ok (server, mgr')) :
    ((lru.entries mgr.requestIdToServer).lookup requestId = some server ∧
      mgr'.weightedServers = mgr.weightedServers ∧
      lru.entries mgr'.requestIdToServer =
        touch requestId server (lru.entries mgr.requestIdToServer)) ∨
    ((lru.entries mgr.requestIdToServer).lookup requestId = none ∧
      (∃ least rest old, mgr.weightedServers = least :: rest ∧ server = least.server ∧
        Heapq.heapreplace WeightedServer.lt mgr.weightedServers
          { least with requests := least.requests + 1 } = .ok (old, mgr'.weightedServers)) ∧
      lru.entries mgr'.requestIdToServer =
        store lru.maxsize requestId server (lru.entries mgr.requestIdToServer)) := by
  unfold chooseServer at h
  split at h
  case h_1 server' cache hhit =>
    cases h
    obtain ⟨hlookup, hentries⟩ := lru.entries_getItem hhit
    exact Or.inl ⟨hlookup, rfl, hentries⟩
  case h_2 hmiss =>
    obtain ⟨least, hleast, h⟩ := bind_eq_ok.mp h
    obtain ⟨⟨old, weightedServers⟩, hreplace, h⟩ := bind_eq_ok.mp h
    cases h
    have hnone := lru.getItem_eq_none.mp hmiss
    obtain ⟨rest, hheap⟩ : ∃ rest, mgr.weightedServers = least :: rest := by
      have hroot := getItem_eq_ok.mp hleast
      cases hservers : mgr.weightedServers with
      | nil =>
          rw [hservers] at hroot
          cases hroot
      | cons first rest =>
          rw [hservers] at hroot
          cases hroot
          exact ⟨rest, rfl⟩
    exact Or.inr ⟨hnone, ⟨least, rest, old, hheap, rfl, hreplace⟩, lru.entries_setItem hnone⟩

theorem nodup_chooseServer (h : chooseServer mgr requestId = .ok (server, mgr'))
    (hnodup : ((lru.entries mgr.requestIdToServer).map Prod.fst).Nodup) :
    Kept requestId server ∅ (lru.entries mgr'.requestIdToServer) := by
  rcases chooseServer_cases h with ⟨-, -, hentries⟩ | ⟨hnone, -, hentries⟩
  · rw [hentries]
    exact kept_touch hnodup
  · rw [hentries]
    exact kept_store hnodup hnone _

end Step

/-! ## New conversations are given out evenly -/

section Balance

variable [DecidableEq S] {servers given : List S} {mgr mgr' : ServerManager lru}
  {requestId : K} {server : S}

/-- The entry of a handle after the servers of `given` were chosen. -/
def weighted (given : List S) (handle : S × ℕ) : WeightedServer S :=
  ⟨given.count handle.1, handle.2, handle.1⟩

/-- The heap after the servers of `given` were chosen. -/
structure Balanced (servers given : List S) (mgr : ServerManager lru) : Prop where
  isHeap : Heapq.IsHeap WeightedServer.lt mgr.weightedServers
  perm : mgr.weightedServers.Perm (servers.zipIdx.map (weighted given))
  even : ∀ a ∈ servers, ∀ b ∈ servers, given.count a ≤ given.count b + 1
  cached : ∀ e ∈ lru.entries mgr.requestIdToServer, e.2 ∈ servers

theorem balanced_init (lru : LruCache K S) (servers : List S) :
    Balanced servers [] (ServerManager.init lru servers) where
  isHeap := (Heapq.heapify_spec weakOrder_lt _).1
  perm := (Heapq.heapify_spec weakOrder_lt _).2
  even a _ b _ := Nat.zero_le _
  cached e he := by
    rw [show lru.entries (ServerManager.init lru servers).requestIdToServer = [] from
      lru.entries_new] at he
    cases he

theorem Balanced.root_least (h : Balanced servers given mgr) {least : WeightedServer S}
    {rest : List (WeightedServer S)} (hheap : mgr.weightedServers = least :: rest) :
    least.server ∈ servers ∧ least.requests = given.count least.server ∧
      ∀ b ∈ servers, given.count least.server ≤ given.count b := by
  have hmem : least ∈ servers.zipIdx.map (weighted given) :=
    h.perm.mem_iff.mp (hheap ▸ List.mem_cons_self)
  obtain ⟨⟨s, i⟩, hs, rfl⟩ := List.mem_map.mp hmem
  have hservers : s ∈ servers := (List.mem_zipIdx' hs).2 ▸ List.getElem_mem _
  refine ⟨hservers, rfl, fun b hb => ?_⟩
  obtain ⟨j, hj, rfl⟩ := List.mem_iff_getElem.mp hb
  have hb' : weighted given (servers[j], j) ∈ mgr.weightedServers :=
    h.perm.mem_iff.mpr (List.mem_map.mpr ⟨(servers[j], j), by
      rw [List.mem_zipIdx_iff_getElem?, List.getElem?_eq_getElem hj], rfl⟩)
  have hroot : mgr.weightedServers[0]? = some (weighted given (s, i)) := by
    rw [hheap]
    rfl
  have hfirst := h.isHeap.root_first weakOrder_lt hroot hb'
  rw [WeightedServer.lt, decide_eq_false_iff_not, not_lt, Prod.Lex.toLex_le_toLex] at hfirst
  exact hfirst.elim le_of_lt (fun heq => heq.1.le)

/-- The entries of the handles once the root was given one more. -/
theorem Balanced.perm_given (h : Balanced servers given mgr) (hnodup : servers.Nodup)
    {least : WeightedServer S} {rest : List (WeightedServer S)}
    (hheap : mgr.weightedServers = least :: rest) :
    ({ least with requests := least.requests + 1 } :: rest).Perm
      (servers.zipIdx.map (weighted (given ++ [least.server]))) := by
  have hperm := h.perm
  rw [hheap] at hperm
  have hmem := hperm.mem_iff.mp List.mem_cons_self
  obtain ⟨⟨s, i⟩, hs, rfl⟩ := List.mem_map.mp hmem
  obtain ⟨pre, post, hsplit⟩ := List.append_of_mem hs
  -- the other handles are other servers, so their counts stay
  have hother : ∀ e ∈ pre ++ post, e.1 ≠ s := by
    have hhandles : (servers.zipIdx.map Prod.fst).Nodup := by
      rwa [List.zipIdx_map_fst]
    rw [hsplit, List.map_append, List.map_cons] at hhandles
    have hmiddle := (List.nodup_middle.mp hhandles).notMem
    rw [← List.map_append] at hmiddle
    exact fun e he heq => hmiddle (heq ▸ List.mem_map.mpr ⟨e, he, rfl⟩)
  have hstay : ∀ e ∈ pre ++ post, weighted (given ++ [s]) e = weighted given e := by
    intro e he
    rw [weighted, List.count_append, List.count_singleton, beq_false_of_ne (hother e he).symm]
    rfl
  have hmore : { weighted given (s, i) with requests := given.count s + 1 } =
      weighted (given ++ [s]) (s, i) := by
    rw [weighted, weighted, List.count_append, List.count_singleton_self]
  have hmap : ∀ es : List (S × ℕ), (∀ e ∈ es, e ∈ pre ++ post) →
      es.map (weighted (given ++ [s])) = es.map (weighted given) :=
    fun es hes => List.map_congr_left (fun e he => hstay e (hes e he))
  rw [hsplit, List.map_append, List.map_cons] at hperm
  have hrest := (hperm.trans List.perm_middle).cons_inv
  show ({ weighted given (s, i) with requests := given.count s + 1 } :: rest).Perm
    (servers.zipIdx.map (weighted (given ++ [s])))
  rw [hmore, hsplit, List.map_append, List.map_cons,
    hmap pre (fun e he => List.mem_append_left _ he),
    hmap post (fun e he => List.mem_append_right _ he)]
  exact (hrest.cons _).trans List.perm_middle.symm

/-- One request. -/
theorem Balanced.step (h : Balanced servers given mgr) (hne : servers ≠ [])
    (hnodup : servers.Nodup) (requestId : K) :
    ∃ server mgr', chooseServer mgr requestId = .ok (server, mgr') ∧ server ∈ servers ∧
      Balanced servers
        (if (lru.getItem mgr.requestIdToServer requestId).isNone then given ++ [server]
          else given) mgr' := by
  obtain ⟨least, rest, hheap⟩ : ∃ least rest, mgr.weightedServers = least :: rest := by
    cases hservers : mgr.weightedServers with
    | nil =>
        have hlen := h.perm.length_eq
        rw [hservers, List.length_map, List.length_zipIdx] at hlen
        exact absurd (List.length_eq_zero_iff.mp hlen.symm) hne
    | cons least rest => exact ⟨least, rest, rfl⟩
  cases hhit : lru.getItem mgr.requestIdToServer requestId with
  | some found =>
      obtain ⟨server, cache⟩ := found
      obtain ⟨hlookup, hentries⟩ := lru.entries_getItem hhit
      have hserver : server ∈ servers := h.cached _ (mem_of_lookup hlookup)
      refine ⟨server, { mgr with requestIdToServer := cache }, ?_, hserver, ?_⟩
      · rw [chooseServer, hhit]
      · refine ⟨h.isHeap, h.perm, h.even, fun e he => ?_⟩
        rw [hentries] at he
        rcases List.mem_append.mp he with he | he
        · exact h.cached e (List.mem_filter.mp he).1
        · rw [List.mem_singleton.mp he]
          exact hserver
  | none =>
      obtain ⟨hserver, -, hleast⟩ := h.root_least hheap
      obtain ⟨heap, hreplace, hisHeap, hperm⟩ := Heapq.heapreplace_spec weakOrder_lt
        (hheap ▸ h.isHeap) { least with requests := least.requests + 1 }
      rw [← hheap] at hreplace
      have hroot : getItem mgr.weightedServers 0 = .ok least := by
        rw [hheap]
        rfl
      refine ⟨least.server,
        ⟨heap, lru.setItem mgr.requestIdToServer requestId least.server⟩, ?_, hserver, ?_⟩
      · rw [chooseServer, hhit]
        dsimp only
        rw [hroot, ok_bind, hreplace]
        rfl
      rw [if_pos Option.isNone_none]
      refine ⟨hisHeap, hperm.trans (h.perm_given hnodup hheap), ?_, ?_⟩
      · intro a ha b hb
        have heven := h.even a ha b hb
        have hlow := hleast b hb
        rw [List.count_append, List.count_append, List.count_singleton, List.count_singleton]
        cases heq : least.server == a with
        | true =>
            rw [← beq_iff_eq.mp heq, if_pos rfl]
            omega
        | false =>
            show given.count a + 0 ≤ _
            omega
      · intro e he
        rw [lru.entries_setItem (lru.getItem_eq_none.mp hhit)] at he
        rcases List.mem_append.mp he with he | he
        · exact h.cached e (List.mem_of_mem_drop he)
        · rw [List.mem_singleton.mp he]
          exact hserver

theorem Balanced.run (hne : servers ≠ []) (hnodup : servers.Nodup) (requestIds : List K)
    (h : Balanced servers given mgr) :
    ∃ out mgr', serve mgr requestIds = .ok (out, mgr') ∧ out.length = requestIds.length ∧
      (∀ server ∈ out, server ∈ servers) ∧
      Balanced servers (given ++ assigned mgr requestIds) mgr' := by
  induction requestIds generalizing given mgr with
  | nil =>
      refine ⟨[], mgr, rfl, rfl, List.forall_mem_nil _, ?_⟩
      rw [assigned, List.append_nil]
      exact h
  | cons requestId requestIds ih =>
      obtain ⟨server, next, hchoose, hserver, hnext⟩ := h.step hne hnodup requestId
      obtain ⟨out, mgr', hserve, hlen, hout, hlast⟩ := ih hnext
      refine ⟨server :: out, mgr', ?_, ?_, List.forall_mem_cons.mpr ⟨hserver, hout⟩, ?_⟩
      · rw [serve, hchoose, ok_bind]
        show (serve next requestIds >>= _) = _
        rw [hserve]
        rfl
      · rw [List.length_cons, List.length_cons, hlen]
      · rw [assigned, hchoose]
        dsimp only
        split
        case isTrue hnew =>
          rw [if_pos hnew, List.append_assoc] at hlast
          exact hlast
        case isFalse hold =>
          rw [if_neg hold] at hlast
          exact hlast

/-- Every run of requests, in any order and with any cache, is served by servers of
the list, and at its end no server was given more than one new conversation more
than another. -/
theorem serve_balanced (lru : LruCache K S) (hne : servers ≠ []) (hnodup : servers.Nodup)
    (requestIds : List K) :
    ∃ out mgr', serve (ServerManager.init lru servers) requestIds = .ok (out, mgr') ∧
      out.length = requestIds.length ∧ (∀ server ∈ out, server ∈ servers) ∧
      ∀ a ∈ servers, ∀ b ∈ servers,
        (assigned (ServerManager.init lru servers) requestIds).count a ≤
          (assigned (ServerManager.init lru servers) requestIds).count b + 1 := by
  obtain ⟨out, mgr', hserve, hlen, hout, hlast⟩ :=
    (balanced_init lru servers).run hne hnodup requestIds
  rw [List.nil_append] at hlast
  exact ⟨out, mgr', hserve, hlen, hout, hlast.even⟩

/-- Three servers, a cache for two conversations and five requests. -/
theorem serve_balanced_three : ∃ out mgr',
    serve (ServerManager.init (listCache ℕ ℕ 2) [20, 21, 22]) [7, 8, 7, 9, 7] =
      .ok (out, mgr') ∧ out.length = 5 := by
  obtain ⟨out, mgr', hserve, hlen, -⟩ := serve_balanced (listCache ℕ ℕ 2)
    (List.cons_ne_nil 20 [21, 22]) (by decide) [7, 8, 7, 9, 7]
  exact ⟨out, mgr', hserve, hlen⟩

end Balance

/-! ## A conversation stays on its server -/

section Sticky

variable {mgr mgr' : ServerManager lru} {k : K} {v : S} {recent : Finset K} {out : List S}

theorem serve_cons {requestId : K} {requestIds : List K}
    (h : serve mgr (requestId :: requestIds) = .ok (out, mgr')) :
    ∃ server next rest, chooseServer mgr requestId = .ok (server, next) ∧
      serve next requestIds = .ok (rest, mgr') ∧ out = server :: rest := by
  rw [serve] at h
  obtain ⟨⟨server, next⟩, hchoose, h⟩ := bind_eq_ok.mp h
  obtain ⟨⟨rest, last⟩, hrest, h⟩ := bind_eq_ok.mp h
  cases h
  exact ⟨server, next, rest, hchoose, hrest, rfl⟩

/-- While the other conversations fit beside it, a conversation gets its server.  The
induction is on the run; `recent` collects the conversations that came since. -/
theorem serve_kept {requestIds : List K} (h : serve mgr requestIds = .ok (out, mgr'))
    (hkept : Kept k v recent (lru.entries mgr.requestIdToServer)) {j : ℕ}
    (hroom : (recent ∪ (requestIds.take j).toFinset.erase k).card < lru.maxsize)
    (hj : requestIds[j]? = some k) : out[j]? = some v := by
  induction requestIds generalizing mgr out recent j with
  | nil => cases hj
  | cons requestId requestIds ih =>
      obtain ⟨server, next, rest, hchoose, hserve, rfl⟩ := serve_cons h
      have hstep := chooseServer_cases hchoose
      by_cases hsame : requestId = k
      · subst hsame
        -- a turn of the conversation itself is found, and is the most recent again
        rcases hstep with ⟨hlookup, -, hentries⟩ | ⟨hnone, -, -⟩
        · rw [hkept.lookup] at hlookup
          cases hlookup
          cases j with
          | zero => rfl
          | succ j =>
              have hnext : Kept requestId v ∅ (lru.entries next.requestIdToServer) := by
                rw [hentries]
                exact kept_touch hkept.nodup
              refine ih hserve hnext ?_ hj
              refine lt_of_le_of_lt (Finset.card_le_card ?_) hroom
              rw [Finset.empty_union, List.take_succ_cons, List.toFinset_cons]
              exact (Finset.erase_subset_erase _ (Finset.subset_insert _ _)).trans
                Finset.subset_union_right
        · rw [hkept.lookup] at hnone
          cases hnone
      · cases j with
        | zero => exact absurd (Option.some.inj hj) hsame
        | succ j =>
            have hgrow : insert requestId recent ∪ (requestIds.take j).toFinset.erase k ⊆
                recent ∪ ((requestId :: requestIds).take (j + 1)).toFinset.erase k := by
              rw [List.take_succ_cons, List.toFinset_cons, Finset.erase_insert_of_ne hsame,
                Finset.insert_union, Finset.union_insert]
            have hroom' := lt_of_le_of_lt (Finset.card_le_card hgrow) hroom
            have hone := lt_of_le_of_lt (Finset.card_le_card Finset.subset_union_left) hroom'
            have hnext : Kept k v (insert requestId recent)
                (lru.entries next.requestIdToServer) := by
              rcases hstep with ⟨-, -, hentries⟩ | ⟨hnone, -, hentries⟩
              · rw [hentries]
                exact hkept.touch hsame
              · rw [hentries]
                exact hkept.store hsame hnone hone
            exact ih hserve hnext hroom' hj

/-- No conversation is in the cache twice, after any run. -/
theorem nodup_serve {requestIds : List K} (h : serve mgr requestIds = .ok (out, mgr'))
    (hnodup : ((lru.entries mgr.requestIdToServer).map Prod.fst).Nodup) :
    ((lru.entries mgr'.requestIdToServer).map Prod.fst).Nodup := by
  induction requestIds generalizing mgr out with
  | nil =>
      cases h
      exact hnodup
  | cons requestId requestIds ih =>
      obtain ⟨server, next, rest, hchoose, hserve, rfl⟩ := serve_cons h
      exact ih hserve (nodup_chooseServer hchoose hnodup).nodup

theorem serve_append {xs ys : List K} (h : serve mgr (xs ++ ys) = .ok (out, mgr')) :
    ∃ first middle rest, serve mgr xs = .ok (first, middle) ∧
      serve middle ys = .ok (rest, mgr') ∧ out = first ++ rest ∧ first.length = xs.length := by
  induction xs generalizing mgr out with
  | nil => exact ⟨[], mgr, out, rfl, h, rfl, rfl⟩
  | cons x xs ih =>
      obtain ⟨server, next, tail, hchoose, hserve, rfl⟩ := serve_cons h
      obtain ⟨first, middle, rest, hfirst, hrest, rfl, hlen⟩ := ih hserve
      refine ⟨server :: first, middle, rest, ?_, hrest, rfl, by
        rw [List.length_cons, List.length_cons, hlen]⟩
      rw [serve, hchoose, ok_bind]
      show (serve next xs >>= _) = _
      rw [hfirst]
      rfl

/-- In every run, two turns of a conversation go to one server if fewer other
conversations came between them than the cache has room for. -/
theorem serve_sticky {servers : List S} {requestIds : List K}
    (h : serve (ServerManager.init lru servers) requestIds = .ok (out, mgr')) {i j : ℕ}
    (hij : i ≤ j) (hi : requestIds[i]? = some k) (hj : requestIds[j]? = some k)
    (hroom : (((requestIds.take j).drop i).toFinset.erase k).card < lru.maxsize) :
    out[i]? = out[j]? := by
  obtain ⟨hlt, hk⟩ := List.getElem?_eq_some_iff.mp hi
  have hsplit : requestIds = requestIds.take i ++ k :: requestIds.drop (i + 1) := by
    rw [← hk, ← List.drop_eq_getElem_cons hlt, List.take_append_drop]
  rw [hsplit] at h
  obtain ⟨first, middle, tail, hfirst, htail, rfl, hlen⟩ := serve_append h
  obtain ⟨server, next, rest, hchoose, hrest, rfl⟩ := serve_cons htail
  rw [List.length_take, Nat.min_eq_left hlt.le] at hlen
  have hstart : ((lru.entries (ServerManager.init lru servers).requestIdToServer).map
      Prod.fst).Nodup := by
    rw [show lru.entries (ServerManager.init lru servers).requestIdToServer = [] from
      lru.entries_new]
    exact List.nodup_nil
  have hkept := nodup_chooseServer hchoose (nodup_serve hfirst hstart)
  have hhere : (first ++ server :: rest)[i]? = some server := by
    rw [List.getElem?_append_right hlen.le, hlen, Nat.sub_self]
    rfl
  rw [hhere]
  obtain ⟨d, rfl⟩ := Nat.exists_eq_add_of_le hij
  cases d with
  | zero => exact hhere.symm
  | succ d =>
      have hthere : (first ++ server :: rest)[i + (d + 1)]? = rest[d]? := by
        rw [List.getElem?_append_right (by omega), hlen, Nat.add_sub_cancel_left]
        rfl
      rw [hthere]
      refine (serve_kept hrest hkept (j := d) ?_ ?_).symm
      · refine lt_of_le_of_lt (Finset.card_le_card ?_) hroom
        rw [Finset.empty_union]
        refine Finset.erase_subset_erase k (fun x hx => ?_)
        rw [List.mem_toFinset] at hx ⊢
        rw [List.drop_take, Nat.add_sub_cancel_left, List.drop_eq_getElem_cons hlt,
          List.take_succ_cons]
        exact List.mem_cons_of_mem _ hx
      · rw [List.getElem?_drop, ← hj]
        congr 1
        omega

/-- Conversation 7 comes back after one other and is still known. -/
theorem serve_sticky_seven : ∃ out mgr',
    serve (ServerManager.init (listCache ℕ ℕ 2) [20, 21, 22]) [7, 8, 7] = .ok (out, mgr') ∧
      out[0]? = out[2]? := by
  obtain ⟨out, mgr', hserve, -⟩ := (balanced_init (listCache ℕ ℕ 2) [20, 21, 22]).run
    (List.cons_ne_nil _ _) (by decide) [7, 8, 7]
  exact ⟨out, mgr', hserve, serve_sticky (k := 7) (i := 0) (j := 2) hserve (Nat.zero_le 2) rfl rfl
    (by decide)⟩

end Sticky

end RLCM.AgentLoop
