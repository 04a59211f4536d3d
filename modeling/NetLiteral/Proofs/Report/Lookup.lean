import NetLiteral.Proofs.RouteTable.LongestPrefix
import NetLiteral.Report.Lookup

/-!
# Reports of lookups

A report shows the networks that its candidates denote, and nothing else of the candidates: neither
their order nor repetitions nor spellings, and none that is no route of the address's version.
-/

namespace NetLiteral

/-! ## The version of an address -/

namespace IpAddress

def family : IpAddress → Family
  | v4 _ => .ipv4
  | v6 _ => .ipv6

def address : (ip : IpAddress) → Address ip.family
  | v4 a => a
  | v6 a => a

end IpAddress

namespace LookupReport

variable {f : Family} {a : Address f} {routes routes' : List String}

/-- The networks that candidates denote when they are read as routes of a family. -/
def networks (f : Family) (routes : List String) : Set (Route f) :=
  {r | ∃ text ∈ routes, (TextForm.read (Route f) text).value = .ok r}

theorem mem_networks_cons {text : String} {r : Route f} :
    r ∈ networks f (text :: routes) ↔
      (TextForm.read (Route f) text).value = .ok r ∨ r ∈ networks f routes := by
  simp [networks]

theorem networks_eq_empty_iff : networks f routes = ∅ ↔
    ∀ text ∈ routes, ∀ r : Route f, (TextForm.read (Route f) text).value ≠ .ok r := by
  rw [Set.eq_empty_iff_forall_notMem]
  constructor
  · exact fun h text htext r hr => h r ⟨text, htext, hr⟩
  · rintro h r ⟨text, htext, hr⟩
    exact h text htext r hr

/-! ## The table of the candidates -/

theorem get?_addCandidate (t : RouteTable f Unit) (text : String) (r : Route f) :
    (addCandidate t text).value.get? r = some () ↔
      (TextForm.read (Route f) text).value = .ok r ∨ t.get? r = some () := by
  rw [addCandidate, Logged.value_bind]
  cases hread : (TextForm.read (Route f) text).value with
  | error e => simp
  | ok s =>
    simp only [Logged.value_bind, Logged.value_pure, RouteTable.get?_insert, Except.ok.injEq]
    by_cases h : s = r <;> simp [h]

/-- A table grows by the networks of the candidates added to it. -/
theorem get?_foldlM_addCandidate (t : RouteTable f Unit) (routes : List String) (r : Route f) :
    (routes.foldlM addCandidate t).value.get? r = some () ↔
      r ∈ networks f routes ∨ t.get? r = some () := by
  induction routes generalizing t with
  | nil => simp [networks]
  | cons text routes ih =>
    rw [List.foldlM_cons, Logged.value_bind, ih, get?_addCandidate, mem_networks_cons, or_left_comm,
      or_assoc]

theorem get?_tableOf {r : Route f} :
    (tableOf f routes).value.get? r = some () ↔ r ∈ networks f routes := by
  rw [tableOf, get?_foldlM_addCandidate, RouteTable.get?_empty]
  simp

theorem agree_tableOf (h : networks f routes = networks f routes') :
    RouteTable.Agree (tableOf f routes).value (tableOf f routes').value := by
  intro r
  apply Option.ext
  intro u
  rw [get?_tableOf, get?_tableOf, h]

theorem isEmpty_tableOf_iff :
    (tableOf f routes).value.isEmpty = true ↔ networks f routes = ∅ := by
  rw [RouteTable.isEmpty_iff, List.eq_nil_iff_forall_not_mem, Set.eq_empty_iff_forall_notMem]
  constructor
  · intro h r hr
    exact h (r, ()) (RouteTable.mem_entries_iff.mpr (get?_tableOf.mpr hr))
  · intro h e he
    exact h e.1 (get?_tableOf.mp (RouteTable.mem_entries_iff.mp he))

/-! ## The report of a table -/

/-- `rs` are the networks `ns`, each once and in the order of routes. -/
structure Sorts (rs : List (Route f)) (ns : Set (Route f)) : Prop where
  mem_iff : ∀ r, r ∈ rs ↔ r ∈ ns
  pairwise_lt : rs.Pairwise fun r s => compare r s = .lt

/-- The report for an address that shows networks in a given order. -/
def showing (a : Address f) (rs : List (Route f)) : LookupReport where
  address := TextForm.text a
  route := (rs.filter (·.contains a)).head?.map TextForm.text
  containing := (rs.filter (·.contains a)).map TextForm.text
  table := rs.map TextForm.text

theorem sorts_tableOf (routes : List String) :
    Sorts ((tableOf f routes).value.entries.map Prod.fst) (networks f routes) := by
  constructor
  · intro r
    rw [← get?_tableOf, ← RouteTable.mem_entries_iff, List.mem_map]
    constructor
    · rintro ⟨e, he, rfl⟩
      exact he
    · exact fun hr => ⟨(r, ()), hr, rfl⟩
  · exact List.pairwise_map.mpr (RouteTable.entries_pairwise_lt _)

theorem value_ofTable (a : Address f) (t : RouteTable f Unit) :
    (ofTable a t).value = showing a (t.entries.map Prod.fst) := by
  have hfilter : (t.entries.map Prod.fst).filter (·.contains a) =
      (t.containing a).map Prod.fst := List.filter_map
  rw [ofTable, Logged.value_bind, Logged.value_pure, RouteTable.lookup_eq_head?, showing, hfilter,
    List.head?_map, Option.map_map, List.map_map, List.map_map]
  rfl

theorem value_ofAddress (ip : Address f → IpAddress) (a : Address f) (routes : List String) :
    (ofAddress ip a routes).value =
      if (tableOf f routes).value.isEmpty then .error (.noUsableRoutes (ip a))
      else .ok (showing a ((tableOf f routes).value.entries.map Prod.fst)) := by
  rw [ofAddress, Logged.value_bind]
  cases (tableOf f routes).value.isEmpty with
  | true => rfl
  | false => rw [← value_ofTable]; rfl

theorem value_of {address : String} {ip : IpAddress}
    (h : (TextForm.read IpAddress address).value = .ok ip) (routes : List String) :
    (of address routes).value =
      if (tableOf ip.family routes).value.isEmpty then .error (.noUsableRoutes ip)
      else .ok (showing ip.address ((tableOf ip.family routes).value.entries.map Prod.fst)) := by
  rw [of, Logged.value_bind, h]
  cases ip with
  | v4 a => exact value_ofAddress .v4 a routes
  | v6 a => exact value_ofAddress .v6 a routes

theorem value_of_error {address : String} {e : Failure}
    (h : (TextForm.read IpAddress address).value = .error e) (routes : List String) :
    (of address routes).value = .error (.invalidAddress address e) := by
  rw [of, Logged.value_bind, h]
  rfl

/-! ## What a report depends on -/

/-- The same networks give the same report, or the same error. -/
theorem value_of_eq {address : String}
    (h : ∀ ip, (TextForm.read IpAddress address).value = .ok ip →
      networks ip.family routes = networks ip.family routes') :
    (of address routes).value = (of address routes').value := by
  cases hread : (TextForm.read IpAddress address).value with
  | error e => rw [value_of_error hread, value_of_error hread]
  | ok ip =>
    have hagree := agree_tableOf (h ip hread)
    rw [value_of hread, value_of hread, hagree.isEmpty, hagree.entries]

theorem exists_error_iff {address : String} :
    (∃ e, (of address routes).value = .error e) ↔
      (∀ ip, (TextForm.read IpAddress address).value ≠ .ok ip) ∨
        ∃ ip, (TextForm.read IpAddress address).value = .ok ip ∧
          networks ip.family routes = ∅ := by
  cases hread : (TextForm.read IpAddress address).value with
  | error e => simp [value_of_error hread]
  | ok ip =>
    simp only [value_of hread, isEmpty_tableOf_iff, Except.ok.injEq]
    by_cases hnone : networks ip.family routes = ∅ <;> simp [hnone]

/-- A report is determined by the networks that the candidates denote in the address's version. It
fails where the address is none or there is no such network; otherwise its table holds these
networks in the order of routes, its matches are those of the table that contain the address, and
its route is the first match. A network contains the addresses whose host bits have to be cleared
to get to its own. -/
theorem report_determined_by_networks (address : String) (routes : List String) :
    (∀ routes' : List String, (∀ ip, (TextForm.read IpAddress address).value = .ok ip →
        networks ip.family routes = networks ip.family routes') →
      (of address routes).value = (of address routes').value) ∧
    ((∃ e, (of address routes).value = .error e) ↔
      (∀ ip, (TextForm.read IpAddress address).value ≠ .ok ip) ∨
        ∃ ip, (TextForm.read IpAddress address).value = .ok ip ∧
          ∀ text ∈ routes, ∀ r : Route ip.family,
            (TextForm.read (Route ip.family) text).value ≠ .ok r) ∧
    (∀ report, (of address routes).value = .ok report →
      ∃ ip, (TextForm.read IpAddress address).value = .ok ip ∧
        ∃ rs, Sorts rs (networks ip.family routes) ∧
          report.address = TextForm.text ip ∧
          report.table = rs.map TextForm.text ∧
          report.containing = (rs.filter (·.contains ip.address)).map TextForm.text ∧
          report.route = report.containing.head?) ∧
    (∀ f (r : Route f) a, (r.contains a = true ↔ a.network r.prefixLength = r.address) ∧
      (a.network r.prefixLength).value = a.value - a.value % 2 ^ r.prefixLength.hostBits) := by
  refine ⟨fun routes' h => value_of_eq h, ?_, ?_,
    fun f r a => ⟨Route.contains_iff, a.value_network_eq_sub r.prefixLength⟩⟩
  · simp only [exists_error_iff, networks_eq_empty_iff]
  · intro report h
    cases hread : (TextForm.read IpAddress address).value with
    | error e =>
      rw [value_of_error hread] at h
      cases h
    | ok ip =>
      rw [value_of hread] at h
      split at h
      next => cases h
      next =>
        cases h
        refine ⟨ip, rfl, _, sorts_tableOf routes, ?_, rfl, rfl, List.head?_map.symm⟩
        cases ip <;> rfl

end LookupReport

end NetLiteral
