import MultiCoreL2Cache.Model.Stimulus

/-!
# The driver on the clock

`cache_driver` on the clock of the cache. A clocking block drives its outputs after the edge, so that a
packet is on the bus from the cycle after the one in which the driver has waited for the edge.
-/

namespace MultiCoreL2Cache

variable {cfg : Config}

structure DriverBus (cfg : Config) where
  driver : DriverState cfg
  l2EntryPacket : L2EntryPacket cfg

namespace DriverBus

def idle (cfg : Config) : DriverBus cfg := ⟨.waiting, .zero cfg⟩

variable (b : DriverBus cfg)

/-- `get_next_item`. An item that comes while the driver is busy is not taken. -/
def getNextItem (item : Option (CachePacket cfg)) : DriverBus cfg :=
  match b.driver, item with
  | .waiting, some req => { b with driver := .holds req }
  | _, _ => b

/-- `@(vif.driver_cb)`, and what the driver does before it waits again. -/
def clockEdge : DriverBus cfg :=
  match b.driver with
  | .waiting => b
  | .holds req => { driver := .driving, l2EntryPacket := req.toEntryPacket }
  | .driving => { b with driver := .waiting }

def step (item : Option (CachePacket cfg)) : DriverBus cfg := (b.getNextItem item).clockEdge

end DriverBus

/-- The entry packets of `input` are what the driver puts on an idle bus, given these items. -/
def DrivenBy (items : Nat → Option (CachePacket cfg)) (input : Nat → Drive cfg) : Prop :=
  ∀ k, (input k).l2EntryPacket =
    (Clocked.run DriverBus.step (.idle cfg) items k).l2EntryPacket

end MultiCoreL2Cache
