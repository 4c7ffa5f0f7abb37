import Mathlib.Data.List.AList

/-!
# Objects at paths and the URLs that serve them

A store of binary objects, each at a path, as a cloud bucket is. `putData`
replaces the object at a path. `downloadURL` hands out a URL for a path that
has an object; which URL that is, the server chooses, but a URL is for one path
only. A URL that was handed out serves the object that is at its path now, not
the one that was there when it was handed out, or it has stopped working: when
an object is replaced the server may retire any URLs of its path.

Everything is parametric in the types `P` of paths, `U` of URLs and `D` of
contents.

- `resolve`: what a URL serves.
- `putAll`, `downloadURLs`: a batch of puts that stops at the first error, a
  batch of lookups that goes on after one.
- `lookup_putAll`, `stopped_putAll`, `downloadURLs_spec`: what the batches leave.
- `Serves`: a URL works and is the path's, until something is put there again.
-/

namespace Toontagram.Lib

/-- The objects, the path of every URL handed out, and the URLs retired. -/
structure ObjectStore (P U D : Type) where
  objects : AList fun _ : P => D
  paths : AList fun _ : U => P
  stopped : List U

/-- How a put ends: an error, or success and the URLs the server retires. -/
structure PutReply (U : Type) where
  ok : Bool
  stop : List U
deriving DecidableEq, Repr

namespace ObjectStore

variable {P U D : Type} [DecidableEq P] [DecidableEq U]

def empty : ObjectStore P U D := ⟨∅, ∅, []⟩

/-- What is served under a URL. -/
def resolve (s : ObjectStore P U D) (u : U) : Option D :=
  if u ∈ s.stopped then none else (s.paths.lookup u).bind s.objects.lookup

/-- A put that succeeds: `data` replaces the object at `p`, and the URLs of `p`
in `stop` are retired. -/
def putData (s : ObjectStore P U D) (p : P) (data : D) (stop : List U) : ObjectStore P U D :=
  { s with
    objects := s.objects.insert p data
    stopped := s.stopped ++ stop.filter fun u => s.paths.lookup u = some p }

/-- A URL for the object at `p`, or an error. The server may choose a URL that
is new, or one that works and was handed out for `p` before. -/
def downloadURL (s : ObjectStore P U D) (p : P) (choice : Option U) :
    ObjectStore P U D × Option U :=
  match choice with
  | none => (s, none)
  | some u =>
    if (s.objects.lookup p).isSome ∧ u ∉ s.stopped ∧ (s.paths.lookup u).getD p = p then
      ({ s with paths := s.paths.insert u p }, some u)
    else (s, none)

/-- Puts one after the other; an error ends the batch. -/
def putAll : ObjectStore P U D → List (P × D × PutReply U) → ObjectStore P U D × Bool
  | s, [] => (s, true)
  | s, (p, data, r) :: puts => if r.ok then (s.putData p data r.stop).putAll puts else (s, false)

/-- Lookups one after the other; the URLs if none of them failed. -/
def downloadURLs : ObjectStore P U D → List (P × Option U) → ObjectStore P U D × Option (List U)
  | s, [] => (s, some [])
  | s, (p, choice) :: lookups =>
    let (s, url) := s.downloadURL p choice
    let (s, urls) := s.downloadURLs lookups
    (s, match url, urls with
      | some u, some us => some (u :: us)
      | _, _ => none)

/-! ## A batch of puts -/

theorem paths_putAll {s s' : ObjectStore P U D} {puts : List (P × D × PutReply U)} {ok : Bool}
    (h : s.putAll puts = (s', ok)) : s'.paths = s.paths := by
  induction puts generalizing s with
  | nil =>
    cases h
    rfl
  | cons put puts ih =>
    obtain ⟨p, data, r⟩ := put
    rw [putAll] at h
    split at h
    · have hrest : s'.paths = (s.putData p data r.stop).paths := ih h
      exact hrest
    · cases h
      rfl

/-- Puts that all succeed. -/
theorem putAll_of_ok {puts : List (P × D × PutReply U)} (h : ∀ put ∈ puts, put.2.2.ok = true)
    (s : ObjectStore P U D) : (s.putAll puts).2 = true := by
  induction puts generalizing s with
  | nil => rfl
  | cons put puts ih =>
    rw [putAll, if_pos (h put List.mem_cons_self)]
    exact ih (fun put' h' => h put' (List.mem_cons_of_mem put h')) _

/-- A batch goes to its end if no put fails. -/
theorem putAll_ok_iff (s : ObjectStore P U D) (puts : List (P × D × PutReply U)) :
    (s.putAll puts).2 = true ↔ ∀ put ∈ puts, put.2.2.ok = true := by
  refine ⟨fun h => ?_, fun h => putAll_of_ok h s⟩
  induction puts generalizing s with
  | nil => exact fun put hput => absurd hput List.not_mem_nil
  | cons put puts ih =>
    rw [putAll] at h
    split at h
    next hok =>
      intro put' hput'
      rcases List.mem_cons.mp hput' with rfl | hput'
      · exact hok
      · exact ih _ h put' hput'
    next => cases h

/-- A batch after one without errors. -/
theorem putAll_append {s s' : ObjectStore P U D} {puts puts' : List (P × D × PutReply U)}
    (h : s.putAll puts = (s', true)) : s.putAll (puts ++ puts') = s'.putAll puts' := by
  induction puts generalizing s with
  | nil =>
    cases h
    rfl
  | cons put puts ih =>
    rw [putAll] at h
    rw [List.cons_append, putAll]
    split at h
    next hok => rw [if_pos hok, ih h]
    next => cases h

/-- Where nothing is put, nothing changes. -/
theorem lookup_putAll_of_not_mem {s s' : ObjectStore P U D} {puts : List (P × D × PutReply U)}
    {ok : Bool} (h : s.putAll puts = (s', ok)) {p : P} (hp : p ∉ puts.map Prod.fst) :
    s'.objects.lookup p = s.objects.lookup p := by
  induction puts generalizing s with
  | nil =>
    cases h
    rfl
  | cons put puts ih =>
    obtain ⟨q, data, r⟩ := put
    rw [List.map_cons, List.mem_cons, not_or] at hp
    rw [putAll] at h
    split at h
    · exact (ih h hp.2).trans (AList.lookup_insert_ne hp.1)
    · cases h
      rfl

/-- A batch without errors puts everything in its place. -/
theorem lookup_putAll {s s' : ObjectStore P U D} {puts : List (P × D × PutReply U)}
    (h : s.putAll puts = (s', true)) (hnodup : (puts.map Prod.fst).Nodup) {p : P} {data : D}
    {r : PutReply U} (hput : (p, data, r) ∈ puts) : s'.objects.lookup p = some data := by
  induction puts generalizing s with
  | nil => cases hput
  | cons put puts ih =>
    obtain ⟨q, data', r'⟩ := put
    rw [List.map_cons, List.nodup_cons] at hnodup
    rw [putAll] at h
    split at h
    next =>
      rcases List.mem_cons.mp hput with heq | hput
      · cases heq
        exact (lookup_putAll_of_not_mem h hnodup.1).trans (AList.lookup_insert _)
      · exact ih h hnodup.2 hput
    next => cases h

/-- The URLs a batch retires. -/
theorem stopped_putAll {s s' : ObjectStore P U D} {puts : List (P × D × PutReply U)}
    (h : s.putAll puts = (s', true)) {u : U} :
    u ∈ s'.stopped ↔
      u ∈ s.stopped ∨ ∃ put ∈ puts, u ∈ put.2.2.stop ∧ s.paths.lookup u = some put.1 := by
  induction puts generalizing s with
  | nil =>
    cases h
    simp
  | cons put puts ih =>
    obtain ⟨p, data, r⟩ := put
    rw [putAll] at h
    split at h
    next =>
      rw [ih h]
      simp only [putData, List.mem_append, List.mem_filter, decide_eq_true_eq, List.mem_cons,
        exists_eq_or_imp, or_assoc]
    next => cases h

/-! ## A batch of lookups -/

theorem downloadURL_objects (s : ObjectStore P U D) (p : P) (choice : Option U) :
    (s.downloadURL p choice).1.objects = s.objects ∧
      (s.downloadURL p choice).1.stopped = s.stopped := by
  unfold downloadURL
  split
  · exact ⟨rfl, rfl⟩
  · split <;> exact ⟨rfl, rfl⟩

/-- A URL keeps its path. -/
theorem downloadURL_paths {s : ObjectStore P U D} {p : P} {choice : Option U} {u : U} {q : P}
    (h : s.paths.lookup u = some q) :
    (s.downloadURL p choice).1.paths.lookup u = some q := by
  unfold downloadURL
  split
  · exact h
  next v =>
    split
    next hv =>
      by_cases huv : u = v
      · subst huv
        have hq : q = p := by
          have := hv.2.2
          rwa [h] at this
        rw [hq]
        exact AList.lookup_insert _
      · exact (AList.lookup_insert_ne huv).trans h
    next => exact h

/-- A lookup that succeeds returns the chosen URL, which works and is the path's. -/
theorem downloadURL_some {s : ObjectStore P U D} {p : P} {choice : Option U} {u : U}
    (h : (s.downloadURL p choice).2 = some u) :
    choice = some u ∧ u ∉ s.stopped ∧ (s.downloadURL p choice).1.paths.lookup u = some p := by
  unfold downloadURL at h ⊢
  split at h
  next => cases h
  next v =>
    split at h
    next hv =>
      obtain rfl := Option.some.inj h
      refine ⟨rfl, hv.2.1, ?_⟩
      simp only [if_pos hv]
      exact AList.lookup_insert _
    next => cases h

theorem downloadURLs_paths {s : ObjectStore P U D} {lookups : List (P × Option U)} {u : U} {q : P}
    (h : s.paths.lookup u = some q) :
    (s.downloadURLs lookups).1.paths.lookup u = some q := by
  induction lookups generalizing s with
  | nil => exact h
  | cons lookup lookups ih =>
    obtain ⟨p, choice⟩ := lookup
    exact ih (downloadURL_paths h)

theorem downloadURLs_objects (s : ObjectStore P U D) (lookups : List (P × Option U)) :
    (s.downloadURLs lookups).1.objects = s.objects ∧
      (s.downloadURLs lookups).1.stopped = s.stopped := by
  induction lookups generalizing s with
  | nil => exact ⟨rfl, rfl⟩
  | cons lookup lookups ih =>
    obtain ⟨p, choice⟩ := lookup
    obtain ⟨hobjects, hstopped⟩ := s.downloadURL_objects p choice
    obtain ⟨hobjects', hstopped'⟩ := ih (s.downloadURL p choice).1
    exact ⟨hobjects'.trans hobjects, hstopped'.trans hstopped⟩

/-- A batch without errors returns the chosen URLs, in order; each works and is
its path's. -/
theorem downloadURLs_spec {s : ObjectStore P U D} {lookups : List (P × Option U)} {us : List U}
    (h : (s.downloadURLs lookups).2 = some us) :
    lookups.map Prod.snd = us.map some ∧
    ∀ p u, (p, some u) ∈ lookups →
      u ∉ s.stopped ∧ (s.downloadURLs lookups).1.paths.lookup u = some p := by
  induction lookups generalizing s us with
  | nil =>
    cases h
    exact ⟨rfl, fun p u hu => by cases hu⟩
  | cons lookup lookups ih =>
    obtain ⟨p, choice⟩ := lookup
    simp only [downloadURLs] at h
    split at h
    next u us' hu hus =>
      obtain rfl := Option.some.inj h
      obtain ⟨rfl, hstopped, hpath⟩ := downloadURL_some hu
      obtain ⟨hmap, hrest⟩ := ih hus
      refine ⟨by rw [List.map_cons, List.map_cons, hmap], fun q v hv => ?_⟩
      rcases List.mem_cons.mp hv with heq | hv
      · cases heq
        exact ⟨hstopped, (downloadURLs_paths hpath :)⟩
      · obtain ⟨hvstopped, hvpath⟩ := hrest q v hv
        rw [(s.downloadURL_objects p (some u)).2] at hvstopped
        exact ⟨hvstopped, hvpath⟩
    next => cases h

/-- A batch without errors returns one URL for each lookup. -/
theorem length_downloadURLs {s : ObjectStore P U D} {lookups : List (P × Option U)} {us : List U}
    (h : (s.downloadURLs lookups).2 = some us) : us.length = lookups.length := by
  have := congrArg List.length (downloadURLs_spec h).1
  rwa [List.length_map, List.length_map, eq_comm] at this

/-- What a URL that works serves. -/
theorem resolve_of_path {s : ObjectStore P U D} {u : U} {p : P} (h : s.paths.lookup u = some p) :
    s.resolve u = if u ∈ s.stopped then none else s.objects.lookup p := by
  rw [resolve, h]
  rfl

/-! ## A URL that works -/

/-- The URL works and is the path's. -/
def Serves (s : ObjectStore P U D) (u : U) (p : P) : Prop :=
  s.paths.lookup u = some p ∧ u ∉ s.stopped

theorem Serves.resolve {s : ObjectStore P U D} {u : U} {p : P} (h : s.Serves u p) :
    s.resolve u = s.objects.lookup p := by
  rw [resolve_of_path h.1, if_neg h.2]

/-- The URL of a successful lookup. -/
theorem serves_downloadURL {s : ObjectStore P U D} {p : P} {choice : Option U} {u : U}
    (h : (s.downloadURL p choice).2 = some u) : (s.downloadURL p choice).1.Serves u p := by
  obtain ⟨-, hworks, hpath⟩ := downloadURL_some h
  exact ⟨hpath, by rwa [(s.downloadURL_objects p choice).2]⟩

theorem Serves.downloadURL {s : ObjectStore P U D} {u : U} {p : P} (h : s.Serves u p) (q : P)
    (choice : Option U) : (s.downloadURL q choice).1.Serves u p :=
  ⟨downloadURL_paths h.1, by rw [(s.downloadURL_objects q choice).2]; exact h.2⟩

/-- A put retires no URL of another path. -/
theorem Serves.putData {s : ObjectStore P U D} {u : U} {p q : P} (h : s.Serves u p) (hne : q ≠ p)
    (data : D) (stop : List U) : (s.putData q data stop).Serves u p := by
  refine ⟨h.1, fun hmem => ?_⟩
  rcases List.mem_append.mp hmem with hmem | hmem
  · exact h.2 hmem
  · have hq := of_decide_eq_true (List.mem_filter.mp hmem).2
    exact hne (Option.some.inj (hq.symm.trans h.1))

theorem lookup_putData_self (s : ObjectStore P U D) (p : P) (data : D) (stop : List U) :
    (s.putData p data stop).objects.lookup p = some data := AList.lookup_insert _

theorem lookup_putData_ne (s : ObjectStore P U D) {p q : P} (hne : q ≠ p) (data : D)
    (stop : List U) : (s.putData q data stop).objects.lookup p = s.objects.lookup p :=
  AList.lookup_insert_ne (Ne.symm hne)

end ObjectStore

end Toontagram.Lib
