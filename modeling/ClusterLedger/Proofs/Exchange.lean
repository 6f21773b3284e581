import ClusterLedger.Codec.Config
import ClusterLedger.Document.Json
import ClusterLedger.Proofs.Leeway
/- What the scheduler hands out and what it is set up with, as JSON. -/
namespace ClusterLedger

instance : Schema Resource where
  shape := .record [part UInt64 "memory_mb", part UInt32 "vcores"]
  conforms r := .structure_ (by decide) (.keep (Schema.conforms _)
    (.keep (Schema.conforms _) .done))
  reads dialect {r d} varies := by
    obtain ⟨fields, rfl, found⟩ := varies.found
    simp only [List.forall₂_cons, part_name] at found
    obtain ⟨memoryMb, vcores, -⟩ := found
    simp [decode, Document.fields?, memoryMb.required dialect, vcores.required dialect]

instance : NeverNull Resource := ⟨fun _ => Document.noConfusion⟩

instance : NeverNull String := ⟨fun _ => Document.noConfusion⟩

instance : Schema Request where
  shape := .record [part Priority "priority", part String "resource_name",
    part Resource "capability", part UInt32 "num_containers", partOr true "relax_locality",
    partOr Partition.default "node_label_expression"]
  conforms r := .structure_ (by decide) (.keep (Schema.conforms _) (.keep (Schema.conforms _)
    (.keep (Schema.conforms _) (.keep (Schema.conforms _) (.keep (Schema.conforms _)
      (.keep (Schema.conforms _) .done))))))
  reads dialect {r d} varies := by
    obtain ⟨fields, rfl, found⟩ := varies.found
    simp only [List.forall₂_cons, part_name, partOr_name] at found
    obtain ⟨priority, place, capability, count, relaxLocality, label, -⟩ := found
    simp [decode, Document.fields?, priority.required dialect, place.required dialect,
      capability.required dialect, count.required dialect, relaxLocality.optional dialect,
      label.optional dialect]

instance : NeverNull Request := ⟨fun _ => Document.noConfusion⟩

instance : Schema Container where
  shape := .record [part ContainerId "id", part NodeId "node_id", part Resource "resource",
    part Priority "priority", partOr false "is_am_container",
    partOr (none : Option String) "node_token"]
  conforms c := .structure_ (by decide) (.keep (Schema.conforms _) (.keep (Schema.conforms _)
    (.keep (Schema.conforms _) (.keep (Schema.conforms _) (.keep (Schema.conforms _)
      (.keep (Schema.conforms _) .done))))))
  reads dialect {c d} varies := by
    obtain ⟨fields, rfl, found⟩ := varies.found
    simp only [List.forall₂_cons, part_name, partOr_name] at found
    obtain ⟨id, node, resource, priority, isMaster, token, -⟩ := found
    simp [decode, Document.fields?, id.required dialect, node.required dialect,
      resource.required dialect, priority.required dialect, isMaster.optional dialect,
      token.optional dialect]

theorem ofIds_ids (m : Marks) : Marks.ofIds m.ids = m := by
  have entries : m.ids.map (·, ()) = m.table.entries :=
    (List.map_map ..).trans (List.map_id m.table.entries)
  rw [Marks.ofIds, entries, Table.ofList_entries]

instance : Schema Marks where
  shape := shape (List ContainerId)
  conforms m := Schema.conforms m.ids
  reads dialect {m d} varies := by
    have read : decode dialect d = some m.ids := Schema.reads dialect varies
    change (decode dialect d).map Marks.ofIds = some m
    rw [read, Option.map_some, ofIds_ids]

instance : Schema Snapshot where
  shape := .record [part (List Container) "containers", part Resource "headroom",
    part Marks "preempted", part (List Request) "release_requests",
    part (Table NodeId String) "node_tokens"]
  conforms s := .structure_ (by decide) (.keep (Schema.conforms _) (.keep (Schema.conforms _)
    (.keep (Schema.conforms _) (.keep (Schema.conforms _) (.keep (Schema.conforms _) .done)))))
  reads dialect {s d} varies := by
    obtain ⟨fields, rfl, found⟩ := varies.found
    simp only [List.forall₂_cons, part_name] at found
    obtain ⟨containers, headroom, preempted, releaseRequests, nodeTokens, -⟩ := found
    simp [decode, Document.fields?, containers.required dialect, headroom.required dialect,
      preempted.required dialect, releaseRequests.required dialect, nodeTokens.required dialect]

instance : Schema Calculator :=
  .single (fun _ => .text _) fun dialect c => by cases c <;> rfl

instance : Schema SchedulerConfig where
  shape :=
    let absent : SchedulerConfig := {}
    .record [partOr absent.calculator "resource_calculator",
      partOr absent.refreshSeconds "aggregate_usage_refresh_secs",
      partOr absent.minimumAllocation "minimum_allocation"]
  conforms c := .structure_ (by decide) (.keep (Schema.conforms _) (.keep (Schema.conforms _)
    (.keep (Schema.conforms _) .done)))
  reads dialect {c d} varies := by
    obtain ⟨fields, rfl, found⟩ := varies.found
    simp only [List.forall₂_cons, partOr_name] at found
    obtain ⟨calculator, refreshSeconds, minimumAllocation, -⟩ := found
    simp [decode, Document.fields?, calculator.optional dialect, refreshSeconds.optional dialect,
      minimumAllocation.optional dialect]

instance : Schema SimulationSettings where
  shape :=
    let absent : SimulationSettings := {}
    .record [partOr absent.workers "workers", partOr absent.heartbeats "heartbeats",
      partOr absent.heartbeatMillis "heartbeat_interval_ms",
      partOr absent.preemptEvery "preempt_every"]
  conforms s := .structure_ (by decide) (.keep (Schema.conforms _) (.keep (Schema.conforms _)
    (.keep (Schema.conforms _) (.keep (Schema.conforms _) .done))))
  reads dialect {s d} varies := by
    obtain ⟨fields, rfl, found⟩ := varies.found
    simp only [List.forall₂_cons, partOr_name] at found
    obtain ⟨workers, heartbeats, heartbeatMillis, preemptEvery, -⟩ := found
    simp [decode, Document.fields?, workers.optional dialect, heartbeats.optional dialect,
      heartbeatMillis.optional dialect, preemptEvery.optional dialect]

instance : Schema NodeSpec where
  shape := .record [part NodeId "id", partOr "/default-rack" "rack",
    partOr Partition.default "partition", part UInt64 "memory_mb", part UInt32 "vcores"]
  conforms n := .structure_ (by decide) (.keep (Schema.conforms _) (.keep (Schema.conforms _)
    (.keep (Schema.conforms _) (.keep (Schema.conforms _) (.keep (Schema.conforms _) .done)))))
  reads dialect {n d} varies := by
    obtain ⟨fields, rfl, found⟩ := varies.found
    simp only [List.forall₂_cons, part_name, partOr_name] at found
    obtain ⟨id, rack, partition, memoryMb, vcores, -⟩ := found
    simp [decode, Document.fields?, id.required dialect, rack.optional dialect,
      partition.optional dialect, memoryMb.required dialect, vcores.required dialect]

instance : Schema QueueSpec where
  shape := .record [part QueueName "name", partOr (none : Option Resource) "limit",
    partOr Partition.default "partition"]
  conforms q := .structure_ (by decide) (.keep (Schema.conforms _) (.keep (Schema.conforms _)
    (.keep (Schema.conforms _) .done)))
  reads dialect {q d} varies := by
    obtain ⟨fields, rfl, found⟩ := varies.found
    simp only [List.forall₂_cons, part_name, partOr_name] at found
    obtain ⟨name, limit, partition, -⟩ := found
    simp [decode, Document.fields?, name.required dialect, limit.optional dialect,
      partition.optional dialect]

instance : Schema AttemptSpec where
  shape := .record [part AttemptId "id", part String "user", part QueueName "queue",
    partOr (none : Option Request) "am_request", partOr ([] : List Request) "requests"]
  conforms s := .structure_ (by decide) (.keep (Schema.conforms _) (.keep (Schema.conforms _)
    (.keep (Schema.conforms _) (.keep (Schema.conforms _) (.keep (Schema.conforms _) .done)))))
  reads dialect {s d} varies := by
    obtain ⟨fields, rfl, found⟩ := varies.found
    simp only [List.forall₂_cons, part_name, partOr_name] at found
    obtain ⟨id, user, queue, amRequest, requests, -⟩ := found
    simp [decode, Document.fields?, id.required dialect, user.required dialect,
      queue.required dialect, amRequest.optional dialect, requests.optional dialect]

instance : Schema Cluster where
  shape := .record [partOr ({} : SchedulerConfig) "scheduler",
    partOr ({} : SimulationSettings) "simulation", partOr ([] : List NodeSpec) "nodes",
    partOr ([] : List QueueSpec) "queues", partOr ([] : List AttemptSpec) "attempts"]
  conforms c := .structure_ (by decide) (.keep (Schema.conforms _) (.keep (Schema.conforms _)
    (.keep (Schema.conforms _) (.keep (Schema.conforms _) (.keep (Schema.conforms _) .done)))))
  reads dialect {c d} varies := by
    obtain ⟨fields, rfl, found⟩ := varies.found
    simp only [List.forall₂_cons, partOr_name] at found
    obtain ⟨scheduler, simulation, nodes, queues, attempts, -⟩ := found
    simp [decode, Document.fields?, scheduler.optional dialect, simulation.optional dialect,
      nodes.optional dialect, queues.optional dialect, attempts.optional dialect]

def ofJson {α : Type} [Decodable α] (text : String) : Option α :=
  (Json.read text).bind (decode Json.dialect)

/-- A value comes back from its document, from whatever uses the leeway of its shape, and from the
    texts of both. -/
def Rereads {α : Type} [Encodable α] [Decodable α] [Schema α] (x : α) : Prop :=
  ofJson (Json.write (encode x)) = some x ∧
    ∀ d, Varies (shape α) (encode x) d → decode Json.dialect d = some x ∧
      (Json.Plain Json.depthLimit d → ofJson (Json.write d) = some x) ∧
      ∀ text, Json.read text = some d → ofJson text = some x

theorem rereads {α : Type} [Encodable α] [Decodable α] [Schema α]
    (low : (shape α).height ≤ Json.depthLimit) (x : α) : Rereads x := by
  have from_text : ∀ text d, Varies (shape α) (encode x) d → Json.read text = some d →
      ofJson text = some x := fun text d varies read => by
    rw [ofJson, read]
    exact Schema.reads Json.dialect varies
  have plain : Json.Plain Json.depthLimit (encode x) := (Schema.conforms x).plain.mono low
  refine ⟨from_text _ _ (Schema.conforms x) plain.read_write, fun d varies => ?_⟩
  exact ⟨Schema.reads Json.dialect varies, fun plain => from_text _ d varies plain.read_write,
    fun text => from_text text d varies⟩

/-- What is handed out at a heartbeat comes back from its text, and so does a described cluster. -/
theorem exchange_rereads (s : Snapshot) (c : Cluster) : Rereads s ∧ Rereads c :=
  ⟨rereads (by decide) s, rereads (by decide) c⟩

namespace Sparse

/-- A node without its rack and partition, and with a field that no node has. -/
def node : Document :=
  .object [("id", .text "n1"), ("memory_mb", .int 4), ("vcores", .int 1), ("site", .null)]

def nodeSpec : NodeSpec := { id := ⟨"n1"⟩, memoryMb := 4, vcores := 1 }

theorem node_varies : Varies (shape NodeSpec) (encode nodeSpec) node :=
  .structure_ (by decide) (.keep (.same (.text _)) (.leave rfl (.same (.text _))
    (.leave rfl (.same (.text _)) (.keep (Schema.conforms (4 : UInt64))
      (.keep (Schema.conforms (1 : UInt32)) (.add (by decide) .done))))))

theorem node_plain : Json.Plain 1 node :=
  .object (by decide) (by simp [Json.Plain.null, Json.Plain.text, Json.Plain.int])

theorem size_plain (r : Resource) : Json.Plain 1 (encode r) := (Schema.conforms r).plain

def container : Document :=
  .object [("id", .text "c1"), ("node_id", .text "n1"), ("resource", encode (⟨512, 1⟩ : Resource)),
    ("priority", .int 1)]

theorem container_varies : Varies (shape Container)
    (encode (⟨⟨"c1"⟩, ⟨"n1"⟩, ⟨512, 1⟩, ⟨1⟩, false, none⟩ : Container)) container :=
  .structure_ (by decide) (.keep (.same (.text _)) (.keep (.same (.text _))
    (.keep (Schema.conforms _) (.keep (Schema.conforms (⟨1⟩ : Priority))
      (.leave rfl (Schema.conforms false) (.leave rfl .missing .done))))))

theorem container_plain : Json.Plain 2 container :=
  .object (by decide) (by simp [Json.Plain.text, Json.Plain.int, size_plain])

def request : Document :=
  .object [("priority", .int (-1)), ("resource_name", .text "*"),
    ("capability", encode (⟨1024, 1⟩ : Resource)), ("num_containers", .int 1)]

theorem request_varies : Varies (shape Request)
    (encode (⟨.undefined, anyPlace, ⟨1024, 1⟩, 1, true, ""⟩ : Request)) request :=
  .structure_ (by decide) (.keep (Schema.conforms Priority.undefined) (.keep (.same (.text _))
    (.keep (Schema.conforms _) (.keep (Schema.conforms (1 : UInt32))
      (.leave rfl (Schema.conforms true) (.leave rfl (Schema.conforms Partition.default) .done))))))

theorem request_plain : Json.Plain 2 request :=
  .object (by decide) (by simp [Json.Plain.text, Json.Plain.int, size_plain])

def snapshot : Document :=
  .object [("containers", .list [container]), ("headroom", encode (⟨2048, 2⟩ : Resource)),
    ("preempted", .list [.text "c0"]), ("note", .bool true), ("release_requests", .list [request]),
    ("node_tokens", .object [("n1", .text "nmtoken:n1")])]

def snapshotSpec : Snapshot := {
  containers := [⟨⟨"c1"⟩, ⟨"n1"⟩, ⟨512, 1⟩, ⟨1⟩, false, none⟩]
  headroom := ⟨2048, 2⟩
  preempted := .ofIds [⟨"c0"⟩]
  releaseRequests := [⟨.undefined, anyPlace, ⟨1024, 1⟩, 1, true, ""⟩]
  nodeTokens := .ofList [(⟨"n1"⟩, "nmtoken:n1")] }

theorem snapshot_varies : Varies (shape Snapshot) (encode snapshotSpec) snapshot :=
  .structure_ (by decide) (.keep (.list (.cons container_varies .nil)) (.keep (Schema.conforms _)
    (.keep (Schema.conforms snapshotSpec.preempted) (.add (by decide)
      (.keep (.list (.cons request_varies .nil))
        (.keep (Schema.conforms snapshotSpec.nodeTokens) .done))))))

theorem snapshot_plain : Json.Plain 4 snapshot := by
  have containers : Json.Plain 3 (.list [container]) := .list (by simp [container_plain])
  have headroom : Json.Plain 3 (encode (⟨2048, 2⟩ : Resource)) := (size_plain _).mono (by decide)
  have preempted : Json.Plain 3 (.list [.text "c0"]) := .list (by simp [Json.Plain.text])
  have requests : Json.Plain 3 (.list [request]) := .list (by simp [request_plain])
  have tokens : Json.Plain 3 (.object [("n1", .text "nmtoken:n1")]) :=
    .object (by decide) (by simp [Json.Plain.text])
  exact .object (by decide) (by
    simp [containers, headroom, preempted, requests, tokens, Json.Plain.bool])

end Sparse

/-- Left-out defaults and fields that nobody knows make no difference. -/
theorem exchange_rereads_sample :
    ofJson (Json.write Sparse.snapshot) = some Sparse.snapshotSpec ∧
      ofJson (Json.write (.object [("nodes", .list [Sparse.node])])) =
        some ({ nodes := [Sparse.nodeSpec] } : Cluster) := by
  have varies : Varies (shape Cluster) (encode ({ nodes := [Sparse.nodeSpec] } : Cluster))
      (.object [("nodes", .list [Sparse.node])]) :=
    .structure_ (by decide) (.leave rfl (Schema.conforms ({} : SchedulerConfig))
      (.leave rfl (Schema.conforms ({} : SimulationSettings))
        (.keep (.list (.cons Sparse.node_varies .nil))
          (.leave rfl (.list .nil) (.leave rfl (.list .nil) .done)))))
  have plain : Json.Plain 3 (.object [("nodes", .list [Sparse.node])]) :=
    .object (by decide) (List.forall_mem_singleton.mpr
      (.list (List.forall_mem_singleton.mpr Sparse.node_plain)))
  obtain ⟨handed, described⟩ :=
    exchange_rereads Sparse.snapshotSpec { nodes := [Sparse.nodeSpec] }
  exact ⟨(handed.2 _ Sparse.snapshot_varies).2.1 (Sparse.snapshot_plain.mono (by decide)),
    (described.2 _ varies).2.1 (plain.mono (by decide))⟩

end ClusterLedger
