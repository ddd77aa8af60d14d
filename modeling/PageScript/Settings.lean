namespace PageScript

structure WeatherCoords where
  lat : String
  lon : String
  deriving DecidableEq, Repr

structure Link where
  title : String
  url : String
  deriving DecidableEq, Repr

/-- The links are in the order in which they were declared. -/
structure Settings where
  weatherCoords : Option WeatherCoords
  links : List Link
  backgroundSavepath : Option String
  backgroundMaxdim : Option UInt32
  imageSubreddit : Option String
  deriving DecidableEq, Repr

namespace Settings

def initial : Settings := ⟨none, [], none, none, none⟩

def defaultMaxdim : UInt32 := 2500

def defaultSubreddit : String := "EarthPorn"

def maxdim (s : Settings) : UInt32 := s.backgroundMaxdim.getD defaultMaxdim

def subreddit (s : Settings) : String := s.imageSubreddit.getD defaultSubreddit

/-- Where backgrounds are saved. An empty path saves nothing. -/
def savepath? (s : Settings) : Option String := s.backgroundSavepath.filter (· ≠ "")

def canSaveBackground (s : Settings) : Bool := s.savepath?.isSome

end Settings

end PageScript
