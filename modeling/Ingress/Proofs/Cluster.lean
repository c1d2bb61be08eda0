-- What the tables of a cluster answer that is filled from a snapshot, one content and one pod at a
-- time. Main statement: they answer as the snapshot does, but for secrets without contents, which
-- are not known.
import Ingress.Proofs.Writes
import Ingress.Snapshot.Basic

namespace Ingress

/-! ## One content, one pod -/

namespace Cluster

/-- The content under a key of a secret. -/
def contentAt? (c : Cluster) (place : String × String) : Option (List UInt8) :=
  (c.secrets.find? place.1).bind (·.find? place.2)

theorem secret_eq (c : Cluster) (name key : String) : c.secret name key =
    match c.contentAt? (name, key) with
    | some content => .ok content
    | none =>
      if (c.secrets.find? name).isSome then .error (.missingKey name key)
      else .error (.secretNotFound name) := by
  unfold secret contentAt?
  cases c.secrets.find? name with
  | none => rfl
  | some contents => cases h : contents.find? key <;> simp [h]

theorem podLabels_eq_ok_iff {c : Cluster} {targetRef : String} {labels : Table String} :
    c.podLabels targetRef = .ok labels ↔ c.pods.find? targetRef = some labels := by
  unfold podLabels
  cases c.pods.find? targetRef <;> simp

theorem podLabels_eq_error_iff {c : Cluster} {targetRef : String} :
    c.podLabels targetRef = .error (.podNotFound targetRef) ↔ c.pods.find? targetRef = none := by
  unfold podLabels
  cases c.pods.find? targetRef <;> simp

theorem lastWins_addSecret :
    LastWins contentAt? fun c content => c.addSecret content.1.1 content.1.2 content.2 := by
  rintro c ⟨⟨name, key⟩, content⟩ ⟨name', key'⟩
  unfold contentAt? addSecret
  dsimp only
  rw [Table.find?_insert]
  by_cases hname : name' = name
  · subst hname
    rw [if_pos rfl, Option.bind_some, Table.find?_insert]
    by_cases hkey : key' = key
    · simp [hkey]
    · cases c.secrets.find? name' <;> simp [hkey]
  · simp [hname]

theorem lastWins_addPod :
    LastWins (fun c targetRef => c.pods.find? targetRef) fun c pod => addPod c pod.1 pod.2 :=
  fun c pod targetRef => Table.find?_insert c.pods pod.1 pod.2 targetRef

/-! ## Many contents, many pods -/

theorem secrets_foldl_addPod (pods : List (String × Table String)) (c : Cluster) :
    (pods.foldl (fun c pod => c.addPod pod.1 pod.2) c).secrets = c.secrets := by
  induction pods generalizing c with
  | nil => rfl
  | cons pod pods ih => exact ih _

theorem pods_foldl_addSecret (contents : List ((String × String) × List UInt8)) (c : Cluster) :
    (contents.foldl (fun c content => c.addSecret content.1.1 content.1.2 content.2) c).pods =
      c.pods := by
  induction contents generalizing c with
  | nil => rfl
  | cons content contents ih => exact ih _

/-- A secret is known once it has a content. -/
theorem isSome_foldl_addSecret (contents : List ((String × String) × List UInt8)) (c : Cluster)
    (name : String) :
    ((contents.foldl (fun c content => c.addSecret content.1.1 content.1.2 content.2)
        c).secrets.find? name).isSome = true ↔
      (c.secrets.find? name).isSome = true ∨ ∃ content ∈ contents, content.1.1 = name := by
  induction contents generalizing c with
  | nil => simp
  | cons content contents ih =>
    rw [List.foldl_cons, ih, addSecret, Table.find?_insert]
    by_cases hname : name = content.1.1
    · simp [hname]
    · simp [hname, Ne.symm hname]

end Cluster

/-! ## Snapshots -/

theorem Table.entries_ne_nil {α : Type} {t : Table α} (h : t ≠ .empty) : t.entries ≠ [] := by
  intro hnil
  obtain ⟨entries, sorted⟩ := t
  subst hnil
  exact h rfl

namespace Snapshot

/-- The contents of all secrets, each under its secret and key. -/
def contents (s : Snapshot) : List ((String × String) × List UInt8) :=
  s.secrets.entries.flatMap fun secret =>
    secret.2.entries.map fun content => ((secret.1, content.1), Text.utf8Encode content.2)

/-- A cluster with the pods of the snapshot. -/
def podCluster (s : Snapshot) : Cluster :=
  s.pods.entries.foldl (fun c pod => c.addPod pod.1 pod.2) .empty

theorem cluster_eq (s : Snapshot) : s.cluster =
    s.contents.foldl (fun c content => c.addSecret content.1.1 content.1.2 content.2)
      s.podCluster := by
  unfold contents
  rw [List.foldl_flatMap]
  simp only [List.foldl_map]
  rfl

theorem mem_contents_iff {s : Snapshot} {name key : String} {content : List UInt8} :
    ((name, key), content) ∈ s.contents ↔
      ((s.secrets.find? name).bind (·.find? key)).map Text.utf8Encode = some content := by
  unfold contents
  simp only [List.mem_flatMap, List.mem_map, Prod.mk.injEq, Option.map_eq_some_iff,
    Option.bind_eq_some_iff, Table.find?_eq_some_iff]
  constructor
  · rintro ⟨⟨name, contents⟩, hsecret, ⟨key, text⟩, hcontent, ⟨rfl, rfl⟩, rfl⟩
    exact ⟨text, ⟨contents, hsecret, hcontent⟩, rfl⟩
  · rintro ⟨text, ⟨contents, hsecret, hcontent⟩, rfl⟩
    exact ⟨(name, contents), hsecret, (key, text), hcontent, ⟨rfl, rfl⟩, rfl⟩

variable (s : Snapshot)

theorem contentAt?_cluster (name key : String) : s.cluster.contentAt? (name, key) =
    ((s.secrets.find? name).bind (·.find? key)).map Text.utf8Encode := by
  have hnew : s.podCluster.contentAt? (name, key) = none := by
    unfold Cluster.contentAt? podCluster
    rw [Cluster.secrets_foldl_addPod]
    rfl
  rw [cluster_eq]
  exact get_foldl_write_of_mem_iff Cluster.lastWins_addSecret hnew fun content => mem_contents_iff

theorem isSome_secrets_cluster (name : String) : (s.cluster.secrets.find? name).isSome = true ↔
    ∃ contents, s.secrets.find? name = some contents ∧ contents ≠ .empty := by
  have hnew : ¬(s.podCluster.secrets.find? name).isSome = true := by
    unfold podCluster
    rw [Cluster.secrets_foldl_addPod]
    exact Bool.false_ne_true
  rw [cluster_eq, Cluster.isSome_foldl_addSecret]
  constructor
  · rintro (hold | ⟨⟨⟨name', key⟩, content⟩, hcontent, rfl⟩)
    · exact absurd hold hnew
    · obtain ⟨text, hfound, -⟩ := Option.map_eq_some_iff.mp (mem_contents_iff.mp hcontent)
      obtain ⟨contents, hsecret, htext⟩ := Option.bind_eq_some_iff.mp hfound
      refine ⟨contents, hsecret, ?_⟩
      rintro rfl
      cases htext
  · rintro ⟨contents, hsecret, hne⟩
    obtain ⟨⟨key, text⟩, hentry⟩ := List.exists_mem_of_ne_nil _ (Table.entries_ne_nil hne)
    refine .inr ⟨((name, key), Text.utf8Encode text), mem_contents_iff.mpr ?_, rfl⟩
    rw [hsecret, Option.bind_some, Table.find?_eq_some_iff.mpr hentry, Option.map_some]

theorem pods_cluster (targetRef : String) :
    s.cluster.pods.find? targetRef = s.pods.find? targetRef := by
  rw [cluster_eq, Cluster.pods_foldl_addSecret]
  exact get_foldl_write_of_mem_iff Cluster.lastWins_addPod rfl fun labels =>
    Table.find?_eq_some_iff.symm

theorem secret_cluster (name key : String) : s.cluster.secret name key =
    match s.secrets.find? name with
    | none => .error (.secretNotFound name)
    | some contents =>
      if contents = .empty then .error (.secretNotFound name)
      else match contents.find? key with
        | none => .error (.missingKey name key)
        | some text => .ok (Text.utf8Encode text) := by
  have hknown := s.isSome_secrets_cluster name
  rw [Cluster.secret_eq, contentAt?_cluster]
  cases hsecret : s.secrets.find? name with
  | none =>
    have hunknown : ¬(s.cluster.secrets.find? name).isSome = true := by simp [hknown, hsecret]
    exact if_neg hunknown
  | some contents =>
    rw [Option.bind_some]
    by_cases hempty : contents = .empty
    · have hunknown : ¬(s.cluster.secrets.find? name).isSome = true := by
        simp [hknown, hsecret, hempty]
      rw [hempty, Table.find?_empty]
      exact if_neg hunknown
    · have hheld : (s.cluster.secrets.find? name).isSome = true :=
        hknown.mpr ⟨contents, hsecret, hempty⟩
      dsimp only
      rw [if_neg hempty]
      cases contents.find? key with
      | none => exact if_pos hheld
      | some text => rfl

end Snapshot

/-! ## Answers -/

/-- Whether a lookup of a secret's content is answered as the snapshot does: with the content, or
with the reason why there is none. -/
structure Snapshot.Answers (s : Snapshot) (name key : String) : Prop where
  content : ∀ content, s.cluster.secret name key = .ok content ↔ ∃ contents text,
    s.secrets.find? name = some contents ∧ contents.find? key = some text ∧
      Text.utf8Encode text = content
  missingKey : s.cluster.secret name key = .error (.missingKey name key) ↔
    ∃ contents, s.secrets.find? name = some contents ∧ contents.find? key = none
  unknown : s.cluster.secret name key = .error (.secretNotFound name) ↔
    s.secrets.find? name = none

theorem answers_iff {s : Snapshot} {name key : String} :
    s.Answers name key ↔ s.secrets.find? name ≠ some .empty := by
  constructor
  · intro h hempty
    have hmissing := h.missingKey.mpr ⟨.empty, hempty, Table.find?_empty key⟩
    rw [s.secret_cluster, hempty] at hmissing
    cases hmissing
  · intro hne
    have hanswer := s.secret_cluster name key
    cases hsecret : s.secrets.find? name with
    | none =>
      rw [hsecret] at hanswer
      constructor <;> simp [hanswer, hsecret]
    | some contents =>
      rw [hsecret] at hne hanswer
      have hcontents : contents ≠ .empty := fun h => hne (congrArg some h)
      simp only [if_neg hcontents] at hanswer
      cases htext : contents.find? key with
      | none =>
        rw [htext] at hanswer
        constructor <;> simp [hanswer, hsecret, htext]
      | some text =>
        rw [htext] at hanswer
        constructor <;> simp [hanswer, hsecret, htext]

/-- The cluster of a snapshot answers as the snapshot does, but for secrets without contents, which
are not found. -/
theorem cluster_answers_unless_secret_is_empty (s : Snapshot) :
    (∀ name key, s.Answers name key ↔ s.secrets.find? name ≠ some .empty) ∧
      (∀ name key, s.secrets.find? name = some .empty →
        s.cluster.secret name key = .error (.secretNotFound name)) ∧
      (∀ targetRef labels, s.cluster.podLabels targetRef = .ok labels ↔
        s.pods.find? targetRef = some labels) ∧
      ∀ targetRef, s.cluster.podLabels targetRef = .error (.podNotFound targetRef) ↔
        s.pods.find? targetRef = none := by
  refine ⟨fun name key => answers_iff, ?_, ?_, ?_⟩
  · intro name key hempty
    rw [s.secret_cluster, hempty]
    rfl
  · intro targetRef labels
    rw [Cluster.podLabels_eq_ok_iff, s.pods_cluster]
  · intro targetRef
    rw [Cluster.podLabels_eq_error_iff, s.pods_cluster]

/-- A team with a secret that has no contents. -/
def emptySecret : Snapshot where
  resources := []
  backends := []
  pods := .empty
  secrets := .ofList [("team/empty", .empty)]

theorem empty_secret_is_not_found :
    emptySecret.secrets.find? "team/empty" = some .empty ∧
      emptySecret.cluster.secret "team/empty" "auth" = .error (.secretNotFound "team/empty") ∧
      ¬emptySecret.Answers "team/empty" "auth" := by
  have hfound : emptySecret.secrets.find? "team/empty" = some .empty := rfl
  exact ⟨hfound, rfl, fun h => answers_iff.mp h hfound⟩

end Ingress
