import PanelSkin.Files.FileTree
import PanelSkin.Picture.Basic

/-!
A cache of loaded pictures, scaled as they were asked for. It holds a bounded number of them and
gives up the one that was asked for longest ago; paths that did not load are remembered and not
tried again until the cache is cleared.
-/

namespace PanelSkin

inductive PictureError where
  | unreadable (path : FilePath) (cause : FileError)
  | unsupportedFormat (path : FilePath)
  | decodeFailed
  deriving DecidableEq, Repr

def PictureError.message : PictureError → String
  | .unreadable path cause => "cannot read image " ++ path.text ++ ": " ++ cause.message
  | .unsupportedFormat path => "unsupported image format: " ++ path.text
  | .decodeFailed => "cannot decode image"

/-- What a picture is cached under: its resolved path and the sides asked for. -/
structure PictureKey where
  path : FilePath
  width : Option Nat
  height : Option Nat
  deriving DecidableEq, Repr

/-- Whether two keys ask for the same: the paths count by their components. -/
def PictureKey.same (k l : PictureKey) : Bool :=
  k.path.same l.path && k.width == l.width && k.height == l.height

structure CacheEntry where
  key : PictureKey
  picture : Picture
  /-- Requests for other pictures since this one was asked for. -/
  age : Nat := 0
  deriving Repr

/-- Ages do not grow beyond this. -/
def CacheEntry.oldest : Nat := 0xFFFFFFFF

structure PictureCache where
  /-- Directory in which relative paths start. -/
  base : FilePath
  /-- Most entries it holds. -/
  capacity : Nat
  /-- Entries, the one loaded first in front. -/
  entries : List CacheEntry := []
  /-- Paths that did not load. -/
  failed : List FilePath := []
  hits : Nat := 0
  misses : Nat := 0
  deriving Repr

namespace PictureCache

/-- Number of pictures a cache holds unless said otherwise. -/
def defaultCapacity : Nat := 100

/-- A cache without pictures; it has room for one at least. -/
def empty (base : FilePath) (capacity : Nat) : PictureCache :=
  { base, capacity := max capacity 1 }

def resolve (c : PictureCache) (name : String) : FilePath := c.base.join ⟨name⟩

def keyOf (c : PictureCache) (name : String) (width height : Option Nat) : PictureKey :=
  ⟨c.resolve name, width, height⟩

def find? (c : PictureCache) (key : PictureKey) : Option CacheEntry :=
  c.entries.find? (·.key.same key)

/-- Whether a picture is cached as asked for. -/
def contains (c : PictureCache) (name : String) (width height : Option Nat) : Bool :=
  (c.find? (c.keyOf name width height)).isSome

/-- Whether a resolved path is known not to load. -/
def failedBefore (c : PictureCache) (path : FilePath) : Bool := c.failed.any (·.same path)

/-- Whether a name is known not to load. -/
def hasFailed (c : PictureCache) (name : String) : Bool := c.failedBefore (c.resolve name)

def size (c : PictureCache) : Nat := c.entries.length

def isEmpty (c : PictureCache) : Bool := c.entries.isEmpty

/-- An entry at a request: new again if the request is for it, older otherwise. -/
def aged (key : PictureKey) (e : CacheEntry) : CacheEntry :=
  { e with age := if e.key.same key then 0 else min (e.age + 1) CacheEntry.oldest }

/-- The cache after a request, as far as the ages are concerned. -/
def touch (c : PictureCache) (key : PictureKey) : PictureCache :=
  { c with entries := c.entries.map (aged key) }

def greatestAge (entries : List CacheEntry) : Nat := entries.foldl (fun n e => max n e.age) 0

/-- Entries without the one that is oldest, and was loaded first among those equally old. -/
def evict (entries : List CacheEntry) : List CacheEntry :=
  entries.eraseP (·.age == greatestAge entries)

/-- The cache with one more picture, in place of another when it is full. -/
def keep (c : PictureCache) (key : PictureKey) (picture : Picture) : PictureCache :=
  let entries := if c.capacity ≤ c.entries.length then evict c.entries else c.entries
  { c with entries := entries ++ [{ key, picture }] }

/-- The cache with one more path that does not load. -/
def fail (c : PictureCache) (path : FilePath) : PictureCache :=
  { c with failed := c.failed ++ [path] }

structure Fetched where
  picture : Option Picture
  /-- The path that was loaded to answer it, if any. -/
  loaded : Option FilePath := none
  cache : PictureCache

/-- A picture with the sides asked for. -/
def scaled (scale : Resampler) (picture : Picture) (width height : Option Nat) : Picture :=
  if width.isSome || height.isSome then picture.resized width height scale else picture

/-- Loads a picture for a request. A picture without frames counts as not loaded. -/
def load (scale : Resampler) (loader : FilePath → Except PictureError Picture)
    (c : PictureCache) (key : PictureKey) : Fetched :=
  match loader key.path with
  | .ok picture =>
    if picture.frames.isEmpty then
      { picture := none, loaded := some key.path, cache := c.fail key.path }
    else
      let picture := scaled scale picture key.width key.height
      { picture := some picture, loaded := some key.path, cache := c.keep key picture }
  | .error _ => { picture := none, loaded := some key.path, cache := c.fail key.path }

/-- Answers a request for a picture with some sides. -/
def fetch (loader : FilePath → Except PictureError Picture) (c : PictureCache) (name : String)
    (width height : Option Nat) (scale : Resampler := nearestPixel) : Fetched :=
  let key := c.keyOf name width height
  let older := c.touch key
  match c.find? key with
  | some entry =>
    { picture := some entry.picture, cache := { older with hits := c.hits + 1 } }
  | none =>
    let missed := { older with misses := c.misses + 1 }
    if c.failedBefore key.path then { picture := none, cache := missed }
    else missed.load scale loader key

/-- The cache without pictures and without failures; the counts go on. -/
def clear (c : PictureCache) : PictureCache := { c with entries := [], failed := [] }

/-- The state of the cache in one line. -/
def summary (c : PictureCache) : String :=
  "ImageCache \x7b len: " ++ toString c.size ++ ", capacity: " ++ toString c.capacity
    ++ ", failed: " ++ toString c.failed.length ++ ", hits: " ++ toString c.hits
    ++ ", misses: " ++ toString c.misses ++ " \x7d"

end PictureCache

end PanelSkin
