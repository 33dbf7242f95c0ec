/- How many nanoseconds each unit of clock time holds. -/
namespace CivilTime

def nanosPerMicrosecond : Int := 1000
def nanosPerMillisecond : Int := 1000000
def nanosPerSecond : Int := 1000000000
def nanosPerMinute : Int := 60000000000
def nanosPerHour : Int := 3600000000000
def nanosPerDay : Int := 86400000000000

def secondsPerMinute : Int := 60
def secondsPerHour : Int := 3600
def secondsPerDay : Int := 86400

end CivilTime
