-- The ranges that are allowed for a whole backend. A text names entries between its commas, and no
-- entry decides over another. Main statement: an update of a backend for TCP allows exactly the
-- entries of its text that are ranges, tells of each other one, both in their order, and a comma
-- divides the ranges of a text into those before it and those behind it.
import Ingress.Proofs.Address
import Ingress.Proofs.Topic
import Ingress.Proofs.Update

namespace Ingress

namespace Address

/-! ## Entries -/

/-- The ranges among the entries of a text. -/
def rangesIn (text : String) : List String := (rangeEntries text).filter (IsRange ·)

/-- The entries of a text that are no ranges. -/
def straysIn (text : String) : List String := (rangeEntries text).filter (¬IsRange ·)

/-- A comma divides the entries of a text. -/
theorem rangeEntries_append (before after : String) :
    rangeEntries (before ++ "," ++ after) = rangeEntries before ++ rangeEntries after := by
  have hcomma : (before ++ "," ++ after).toList = before.toList ++ ',' :: after.toList := by
    simp
  unfold rangeEntries
  rw [hcomma, Text.split_append_cons]
  simp only [List.map_append, List.filter_append]

theorem rangesIn_append (before after : String) :
    rangesIn (before ++ "," ++ after) = rangesIn before ++ rangesIn after := by
  unfold rangesIn
  rw [rangeEntries_append, List.filter_append]

end Address

/-! ## The backend for TCP -/

namespace AllowedRanges

theorem validRanges_eq (text : String) : validRanges text = Address.rangesIn text := by
  unfold validRanges Address.rangesIn
  refine List.filter_congr fun entry _ => ?_
  rw [Bool.eq_iff_iff, decide_eq_true_iff, Address.isRange_iff]

theorem invalidEvents_eq (origin : Origin) (text : String) :
    invalidEvents origin text = (Address.straysIn text).map (.invalidRange origin) := by
  unfold invalidEvents Address.straysIn
  congr 1
  refine List.filter_congr fun entry _ => ?_
  rw [Bool.eq_iff_iff, decide_eq_true_iff, Bool.not_eq_true', ← Address.isRange_iff,
    Bool.not_eq_true]

variable (a : Annotations)

theorem value_resolveTcp :
    (resolveTcp a).value = Address.rangesIn (a.canonical Key.sourceRange).value := by
  rw [← a.value_read, ← validRanges_eq]
  rfl

theorem filter_events_resolveTcp : (resolveTcp a).events.filter (·.topic = .ranges) =
    (Address.straysIn (a.canonical Key.sourceRange).value).map
      (.invalidRange (a.canonical Key.sourceRange).origin) := by
  have habout : (a.read Key.sourceRange).About .declaration := .read a _
  have hread : (a.read Key.sourceRange).events.filter (·.topic = .ranges) = [] :=
    habout.filter_eq_nil (by decide) (by decide)
  unfold resolveTcp
  simp only [Logged.events_bind, Logged.events_tellAll, Logged.events_pure, List.append_nil,
    List.filter_append, hread, List.nil_append]
  rw [invalidEvents_eq, a.value_read, List.filter_eq_self]
  intro e he
  obtain ⟨entry, -, rfl⟩ := List.mem_map.mp he
  rfl

end AllowedRanges

/-! ## The law -/

/-- An update of a backend for TCP allows the ranges of the canonical text in their order, and of
ranges it tells nothing but a warning for each other entry, in their order too. The ranges of two
texts with a comma between them are those of the one and then those of the other. -/
theorem exactly_the_ranges_of_a_text_are_allowed (d : Draft) (cluster : ClusterView)
    (routes : RouteTable) (lists : List Userlist) (htcp : d.backend.tcp = true) :
    let run := d.update cluster routes lists
    let text := d.annotations.canonical Key.sourceRange
    run.value.1.tcpRanges = Address.rangesIn text.value ∧
    run.events.filter (·.topic = .ranges) =
      (Address.straysIn text.value).map (.invalidRange text.origin) ∧
    (∀ e ∈ run.events, e.topic = .ranges → e.level = .warn) ∧
    ∀ before after : String, Address.rangesIn (before ++ "," ++ after) =
      Address.rangesIn before ++ Address.rangesIn after := by
  intro run text
  have hstep : d.tcpRanges = AllowedRanges.resolveTcp d.annotations := by
    unfold Draft.tcpRanges
    rw [if_pos htcp]
  have hvalue : run.value.1.tcpRanges = Address.rangesIn text.value := by
    have hfield : run.value.1.tcpRanges = d.tcpRanges.value := rfl
    rw [hfield, hstep, AllowedRanges.value_resolveTcp]
  have htold : run.events.filter (·.topic = .ranges) =
      (Address.straysIn text.value).map (.invalidRange text.origin) := by
    rw [d.filter_events_update cluster routes lists (by decide)]
    unfold Draft.eventsOf
    rw [hstep, AllowedRanges.filter_events_resolveTcp]
  refine ⟨hvalue, htold, ?_, Address.rangesIn_append⟩
  intro e _ he
  cases e with
  | invalidRange => rfl
  | _ => cases he

/-- A backend for TCP with good and bad ranges. -/
def gatedShop : Draft where
  backend := .bare ⟨"shop", "db", "5432"⟩ true []
  annotations := ⟨.plain, Declarations.empty.add
    ⟨Key.sourceRange, ⟨"ingress", "shop", "front"⟩, "a.test/",
      "10.0.0.0/8, fd00::/008,10.0.0.1/33,, ::1/129"⟩⟩

theorem gated_shop_allows_two_ranges :
    let run := gatedShop.update Cluster.empty .empty []
    let origin : Origin := some ⟨"ingress", "shop", "front"⟩
    gatedShop.backend.tcp = true ∧
    run.value.1.tcpRanges = ["10.0.0.0/8", "fd00::/008"] ∧
    run.events.filter (·.topic = .ranges) =
      [.invalidRange origin "10.0.0.1/33", .invalidRange origin "::1/129"] := by
  intro run origin
  have htcp : gatedShop.backend.tcp = true := rfl
  obtain ⟨hranges, htold, -, -⟩ :=
    exactly_the_ranges_of_a_text_are_allowed gatedShop Cluster.empty .empty [] htcp
  refine ⟨htcp, hranges.trans ?_, htold.trans ?_⟩
  · decide +kernel
  · decide +kernel

end Ingress
