import NetLiteral.Proofs.Hosts
import NetLiteral.Proofs.Kind
import NetLiteral.Report.Hosts

/-!
# Reports of hosts

A report shows the first hosts of a network, as many as the limit allows, and says that there are
more exactly if there are.
-/

namespace NetLiteral.HostsReport

variable {f : Family} {text : String} {limit : Nat}

/-- A report on a network: its texts, the texts of the first hosts after its own address up to the
limit, and whether it has more. -/
structure Shows (report : HostsReport) (r : Route f) (limit : Nat) : Prop where
  route : report.route = TextForm.text r
  network : report.network = TextForm.text r.address
  broadcast : report.broadcast = TextForm.text r.broadcast
  hosts : ∃ l : List (Address f), report.hosts = l.map TextForm.text ∧
    l.map Address.value =
      List.range' (r.address.value + 1) (min limit (2 ^ r.prefixLength.hostBits - 2)) ∧
    ∀ a ∈ l, r.address < a ∧ a < r.broadcast
  truncated : report.truncated = true ↔ limit < 2 ^ r.prefixLength.hostBits - 2

/-! ## One network -/

theorem value_ofRoute (limit : Nat) (r : Route f) : (ofRoute limit r).value =
    ⟨TextForm.text r, TextForm.text r.address, TextForm.text r.broadcast,
      (r.hosts.toList.take limit).map TextForm.text, r.hosts.toList[limit]?.isSome⟩ := by
  have hlists := r.hosts.lists_toList
  rw [ofRoute, hlists.take, ← hlists.first? limit]

theorem map_value_take_hosts (limit : Nat) (r : Route f) :
    (r.hosts.toList.take limit).map Address.value =
      List.range' (r.address.value + 1) (min limit (2 ^ r.prefixLength.hostBits - 2)) := by
  rw [List.map_take, r.map_value_hosts]
  rcases Nat.le_total limit (2 ^ r.prefixLength.hostBits - 2) with hle | hge
  · rw [List.take_range'_of_length_ge hle, Nat.min_eq_left hle]
  · rw [List.take_range'_of_length_le hge, Nat.min_eq_right hge]

theorem shows_ofRoute (limit : Nat) (r : Route f) : (ofRoute limit r).value.Shows r limit := by
  rw [value_ofRoute]
  refine ⟨rfl, rfl, rfl, ⟨_, rfl, map_value_take_hosts limit r, ?_⟩, ?_⟩
  · intro a ha
    obtain ⟨hlow, hhigh⟩ := Hosts.mem_between_iff.mp (List.mem_of_mem_take ha)
    exact ⟨Address.lt_iff_value_lt.mpr hlow, Address.lt_iff_value_lt.mpr hhigh⟩
  · rw [isSome_getElem?, ← List.length_map Address.value, r.map_value_hosts, List.length_range']

/-! ## Texts -/

theorem value_of_inl {r : Route .ipv4}
    (h : (TextForm.readEither (Route .ipv4) (Route .ipv6) text).value = .ok (.inl r)) :
    (of text limit).value = .ok (ofRoute limit r).value := by
  rw [of, Logged.value_bind, h]
  rfl

theorem value_of_inr {r : Route .ipv6}
    (h : (TextForm.readEither (Route .ipv4) (Route .ipv6) text).value = .ok (.inr r)) :
    (of text limit).value = .ok (ofRoute limit r).value := by
  rw [of, Logged.value_bind, h]
  rfl

theorem value_of_error {e : Failure}
    (h : (TextForm.readEither (Route .ipv4) (Route .ipv6) text).value = .error e) :
    (of text limit).value = .error (.invalidRoute text e) := by
  rw [of, Logged.value_bind, h, Logged.value_pure]

/-- Every text that denotes a network of one of the versions is answered with its first hosts, up
to the limit and none missing. Every other text is refused with the failure of the version that got
further, that of IPv4 if neither did. -/
theorem hosts_cut_at_limit (text : String) (limit : Nat) :
    (∀ r : Route .ipv4, (TextForm.read (Route .ipv4) text).value = .ok r →
      ∃ report, (of text limit).value = .ok report ∧ report.Shows r limit) ∧
    (∀ r : Route .ipv6, (TextForm.read (Route .ipv6) text).value = .ok r →
      ∃ report, (of text limit).value = .ok report ∧ report.Shows r limit) ∧
    ∀ e₄ e₆ : Failure, (TextForm.read (Route .ipv4) text).value = .error e₄ →
      (TextForm.read (Route .ipv6) text).value = .error e₆ →
        (of text limit).value = .error (.invalidRoute text
          (if e₄.offset < e₆.offset ∨
            e₄.offset = e₆.offset ∧ e₄.reason = .empty ∧ e₆.reason ≠ .empty then e₆ else e₄)) := by
  refine ⟨?_, ?_, ?_⟩
  · intro r hr
    exact ⟨_, value_of_inl (TextForm.readEither_eq_inl_iff.mpr hr), shows_ofRoute limit r⟩
  · intro r hr
    have hread := (TextForm.readEither_eq_inr_iff Route.disjoint).mpr hr
    exact ⟨_, value_of_inr hread, shows_ofRoute limit r⟩
  · intro e₄ e₆ h₄ h₆
    rw [value_of_error (TextForm.readEither_of_errors h₄ h₆), Failure.furthest]
    simp only [Failure.rank_lt_iff]

end NetLiteral.HostsReport
