/-
  DesignMarkup/Asset/Manifest.lean
  ================================
  **The assets that a page refers to,** in the order of the page.  With the list goes a
  table of the nodes at each path, each node once.  Two nodes whose names give the same
  path collide: `Manifest.collisions` lists those paths, in ascending order.
-/
import DesignMarkup.Asset.Path
import DesignMarkup.Json.Value
import DesignMarkup.Notice

namespace DesignMarkup

structure Asset where
  id : String
  name : String
  kind : AssetKind
deriving DecidableEq, Repr

/-- The path of an asset, as the markup refers to it. -/
def Asset.ref (a : Asset) : String := Asset.path a.name a.kind

structure Manifest where
  entries : List Asset
  /-- The ids of the nodes that have an asset at each path, the paths ascending. -/
  owners : List (String × List String)
deriving DecidableEq, Repr

namespace Manifest

def empty : Manifest := ⟨[], []⟩

/-- Add the node of an asset to those at its path, unless it is among them. -/
def claim (owners : List (String × List String)) (a : Asset) : List (String × List String) :=
  let ids := (owners.lookup a.ref).getD []
  Json.insertMember a.ref (if a.id ∈ ids then ids else ids ++ [a.id]) owners

def record (m : Manifest) (a : Asset) : Manifest := ⟨m.entries ++ [a], claim m.owners a⟩

/-- Record an asset, and tell the path by which the markup refers to it. -/
def enter (m : Manifest) (a : Asset) : String × Manifest := (a.ref, m.record a)

/-- Record assets one after the other. -/
def recordAll (m : Manifest) (assets : List Asset) : Manifest :=
  ⟨m.entries ++ assets, assets.foldl claim m.owners⟩

/-- The paths of more than one node, ascending. -/
def collisions (m : Manifest) : List String :=
  (m.owners.filter fun owner => 1 < owner.2.length).map Prod.fst

/-- What there is to remark on in a manifest. -/
def notices (m : Manifest) : List Notice := m.collisions.map .sharedPath

end Manifest

end DesignMarkup
