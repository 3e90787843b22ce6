import JellyBroker.Config
/-!
# Topic names and topic filters

Splitting, matching and validation of topics and filters, as the broker
computes them.
-/

namespace JellyBroker.Topic

def levelSeparator : UInt8 := 0x2f

def singleWildcard : Bytes := [0x2b]

def multiWildcard : Bytes := [0x23]

/-- Successive `getline` calls on the rest of a path, of which `segment` was
already extracted since the last separator.  At the end of the stream a
`getline` that extracts no character fails, so a trailing separator adds no
empty segment. -/
def splitFrom (segment : Bytes) : Bytes → List Bytes
  | [] => if segment.isEmpty then [] else [segment]
  | c :: rest =>
      if c = levelSeparator then segment :: splitFrom [] rest
      else splitFrom (segment ++ [c]) rest

def split (path : Bytes) : List Bytes := splitFrom [] path

def matchesFrom : List Bytes → List Bytes → Bool
  | topicSeg :: topicRest, filterSeg :: filterRest =>
      if filterSeg = multiWildcard then true
      else if filterSeg = singleWildcard then matchesFrom topicRest filterRest
      else if topicSeg ≠ filterSeg then false
      else matchesFrom topicRest filterRest
  | topicRest, filterRest => topicRest.isEmpty && filterRest.isEmpty

def topicMatches (topic filter : Bytes) : Bool :=
  matchesFrom (split topic) (split filter)

def isValidTopic (cfg : Config) (topic : Bytes) : Bool :=
  if topic.isEmpty then false
  else if (topic.length : Int) > cfg.maxTopicLength then false
  else if ((split topic).length : Int) > cfg.maxTopicDepth then false
  else (split topic).all fun seg =>
    !seg.isEmpty && !(seg = singleWildcard || seg = multiWildcard)

/-- The segment loop of `is_valid_filter`.  The last position is the one with
no segment after it. -/
def filterSegmentsValid : List Bytes → Bool
  | [] => true
  | seg :: rest =>
      if seg.isEmpty then false
      else if seg.contains 0x2b && seg ≠ singleWildcard then false
      else if seg = multiWildcard then rest.isEmpty
      else if seg.contains 0x23 then false
      else filterSegmentsValid rest

def isValidFilter (cfg : Config) (filter : Bytes) : Bool :=
  if filter.isEmpty then false
  else if (filter.length : Int) > cfg.maxTopicLength then false
  else if ((split filter).length : Int) > cfg.maxTopicDepth then false
  else filterSegmentsValid (split filter)

end JellyBroker.Topic
