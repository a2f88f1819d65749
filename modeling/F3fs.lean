import F3fs.Shrinker.List
import F3fs.Shrinker.Scan
import F3fs.Shrinker.Walk
import F3fs.Shrinker.Budget
import F3fs.Shrinker.Count
import F3fs.Shrinker.Registry
import F3fs.Shrinker.Order
import F3fs.Concurrent.World
import F3fs.Concurrent.Safety
import F3fs.Concurrent.Revisit
import F3fs.Concurrent.Solo
import F3fs.Concurrent.Unbounded
import F3fs.Concurrent.Realize
import F3fs.Concurrent.Tally
import F3fs.Concurrent.RunNo
import F3fs.Sysfs.Attr
import F3fs.Sysfs.Store
import F3fs.Sysfs.GcMode
import F3fs.Sysfs.Atomic
import F3fs.Sysfs.RoundTrip
import F3fs.Sysfs.Register
import F3fs.Sysfs.Page
import F3fs.Sysfs.Proc
