import MySchedule.ClassLoading.Candidate
import MySchedule.ClassLoading.Extra
import MySchedule.ClassLoading.Helpers
import MySchedule.ClassLoading.InStep
import MySchedule.ClassLoading.Installed
import MySchedule.ClassLoading.JarPaths
import MySchedule.ClassLoading.Jcl
import MySchedule.ClassLoading.Serving
import MySchedule.ClassLoading.Spring
import MySchedule.Cleanup.JobStore
import MySchedule.Cleanup.RemoveJobs
import MySchedule.Client.InStep
import MySchedule.Client.QuartzClientBean
import MySchedule.Console.GroovyContextListener
import MySchedule.Console.MainWindow
import MySchedule.Console.QuartzApplication
import MySchedule.Console.SchedulerView
import MySchedule.Console.Sessions
import MySchedule.Console.SharedMap
import MySchedule.Console.Undeployment
import MySchedule.Firing.Progressions
import MySchedule.Firing.Schedule
import MySchedule.Firing.TriggerHelper
import MySchedule.Interaction.Amid
import MySchedule.Interaction.Contract
import MySchedule.Interaction.History
import MySchedule.Interaction.LastWriter
import MySchedule.Interaction.Pool
import MySchedule.Interaction.Program
import MySchedule.Interaction.Surroundings
import MySchedule.Interaction.Trace
import MySchedule.JBoss.QuartzSchedulerService
import MySchedule.JBoss.SendToQueue
import MySchedule.JBoss.Services
import MySchedule.Java.PropertiesBounds
import MySchedule.Java.PropertiesFormat
import MySchedule.Java.Split
import MySchedule.Java.Throwable
import MySchedule.Keyed.Entries
import MySchedule.Keyed.LinkedMap
import MySchedule.Keyed.Lists
import MySchedule.Keyed.PutAll
import MySchedule.Keyed.Sweep
import MySchedule.Keyed.Writes
import MySchedule.Launch.Arguments
import MySchedule.Launch.Classpath
import MySchedule.Launch.RunJava
import MySchedule.Launch.Scripts
import MySchedule.Launch.Shell
import MySchedule.Launch.Started
import MySchedule.Machines.Failing
import MySchedule.Machines.Runs
import MySchedule.Registration.Cluster
import MySchedule.Registration.DataFiles
import MySchedule.Registration.Discipline
import MySchedule.Registration.Expected
import MySchedule.Registration.FactoryBean
import MySchedule.Registration.LostTrigger
import MySchedule.Registration.NodeContract
import MySchedule.Registration.Overwriting
import MySchedule.Registration.Phases
import MySchedule.Registration.Preserving
import MySchedule.Registration.Progress
import MySchedule.Registration.Quartz18
import MySchedule.Registration.Recovery
import MySchedule.Registration.Restarts
import MySchedule.Registration.Scheduler
import MySchedule.Registration.SingleRun
import MySchedule.Registration.Transaction
import MySchedule.Server.CleanRuns
import MySchedule.Server.JobRuns
import MySchedule.Server.LongRunJob
import MySchedule.Server.QuartzServer
import MySchedule.Server.Servers
import MySchedule.Server.SimpleJobs
import MySchedule.Service.Methods
import MySchedule.Service.MySchedulerService
import MySchedule.Service.Transactions
import MySchedule.Utilities.CreateMap
import MySchedule.Utilities.Getters
import MySchedule.Utilities.PropsText
import MySchedule.Utilities.ToString
